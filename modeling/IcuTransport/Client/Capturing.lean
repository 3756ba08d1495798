import IcuTransport.Client.Budget
import IcuTransport.Wire.Framing

/-!
# What a successful capture holds

A capture succeeds only at the end of many exits: the head was accepted, its framing is valid, the
declared length is within the limit, everything that arrived was written and kept, the metadata were
written, and the received length is the declared one. `deliverToFiles_cases` collects what each
exit checks, and `captured_of_complete` says what it means for the bytes of the last connection.
-/

set_option autoImplicit false

namespace IcuTransport.Client

open Ascii TextScan TurnLoop Wire Redirect Capture

/-! ## The last response -/

/-- A response was read from a connection. -/
theorem oneRequest_ok {answer : Answer} {response : Response}
    (received : oneRequest answer = .ok response) :
    ∃ connection, answer = .answered connection ∧
      readResponseHead connection =
        .accepted response.head response.bodyPrefix response.connection.chunks ∧
      response.connection.ending = connection.ending := by
  cases answer with
  | refused failure => cases received
  | unsent => cases received
  | answered connection =>
      unfold oneRequest at received
      dsimp only at received
      split at received
      · cases received
      · rename_i accepted
        cases received
        exact ⟨connection, rfl, accepted, rfl⟩

/-- The copy of a response to the body file. -/
def captureCopy (world : World) (response : Response) : Copy :=
  copyRemainingBody true world.files.body response.connection 13 response.bodyPrefix

/-- The metadata written for it. -/
def captureMetadata (world : World) (call : Call) (response : Response) : Bool × Option Bytes :=
  writeResponseMetadata call.metadataOutputPath world.files.metadata response.head
    (captureCopy world response).received
    (if world.files.bodyReadable then some (captureCopy world response).written else none)

/-- **How a response is captured**: it is refused before a file is opened, or it is copied. -/
theorem deliverToFiles_cases {world : World} {call : Call} {response : Response} {result : ℕ}
    {delivery : Delivery} (delivered : (result, delivery) = deliverToFiles world call response) :
    ((result = 7 ∨ result = 12 ∨ result = 13) ∧ delivery = .nothing) ∨
      (response.head.invalidFraming = false ∧
        delivery = ⟨[], some (captureCopy world response).written,
          (captureMetadata world call response).2⟩ ∧
        result = deliveryResult true response.head
          ((captureCopy world response).copied && world.files.bodyCloses)
          (captureMetadata world call response).1 (captureCopy world response).failureCode
          (captureCopy world response).received) := by
  unfold deliverToFiles at delivered
  split at delivered
  · obtain ⟨rfl, rfl⟩ := Prod.mk.inj delivered
    exact Or.inl ⟨Or.inr (Or.inr rfl), rfl⟩
  · rename_i framing
    rw [Bool.not_eq_true] at framing
    split at delivered
    · obtain ⟨rfl, rfl⟩ := Prod.mk.inj delivered
      exact Or.inl ⟨Or.inr (Or.inl rfl), rfl⟩
    · split at delivered
      · obtain ⟨rfl, rfl⟩ := Prod.mk.inj delivered
        exact Or.inl ⟨Or.inl rfl, rfl⟩
      · obtain ⟨rfl, rfl⟩ := Prod.mk.inj delivered
        exact Or.inr ⟨framing, rfl, rfl⟩

/-- A failed copy or failed metadata never give a result of a complete response. -/
theorem deliveryResult_complete {head : ResponseHead} {copied metadataWritten : Bool}
    {copyFailure received : ℕ}
    (complete : deliveryResult true head copied metadataWritten copyFailure received ∈ [0, 9, 10]) :
    copied = true ∧ metadataWritten = true := by
  unfold deliveryResult at complete
  split at complete
  · simp only [List.mem_cons, List.not_mem_nil, or_false] at complete
    split at complete <;> omega
  · rename_i succeeded
    simpa [not_or] using succeeded

theorem deliveryResult_copied (head : ResponseHead) (copyFailure received : ℕ) :
    deliveryResult true head true true copyFailure received =
      if ∃ length ∈ head.contentLength, length ≠ received then 9
      else if head.status < 200 ∨ head.status ≥ 300 then 10 else 0 := by
  simp [deliveryResult]

/-! ## The last exchange of a run -/

/-- **A run that made an exchange ends with a turn on the last of them.** -/
theorem last_exchange {fuel : ℕ} {world : World} {call : Call} {outcome : Outcome}
    (ran : sendRequest fuel world call = some outcome)
    (sent : outcome.result ≠ 2 ∧ outcome.result ≠ 3) :
    ∃ visit : LoopState,
      outcome.exchanges[outcome.exchanges.length - 1]? = some (visit.exchange call) ∧
        visit.redirects = outcome.exchanges.length - 1 ∧
        turn world call visit = .finished (outcome.result, outcome.delivery) := by
  rcases sendRequest_eq_some ran with
    ⟨code, _, invalid, rfl⟩ | ⟨state, visits, _, started, finished, all⟩
  · exact absurd invalid (not_or.mpr sent)
  · obtain ⟨last, found, ended⟩ := turn_of_last finished
    rw [all, List.length_map, List.getElem?_map, found]
    exact ⟨last, rfl, visits_redirects finished started.redirects found, ended⟩

/-- A capture that left a body file came from the last response. -/
theorem delivered_of_bodyFile {world : World} {call : Call} {visit : LoopState} {result : ℕ}
    {delivery : Delivery} {path : Bytes} (captures : call.bodyOutputPath = some path)
    (finished : turn world call visit = .finished (result, delivery))
    (opened : delivery.bodyFile ≠ none) :
    ∃ response, oneRequest (world.server visit.redirects (visit.exchange call)) = .ok response ∧
      canFollow visit.request response.head = false ∧
      response.head.invalidFraming = false ∧
      delivery = ⟨[], some (captureCopy world response).written,
        (captureMetadata world call response).2⟩ ∧
      result = deliveryResult true response.head
        ((captureCopy world response).copied && world.files.bodyCloses)
        (captureMetadata world call response).1 (captureCopy world response).failureCode
        (captureCopy world response).received := by
  rcases turn_eq_finished finished with
    ⟨_, _, _, rfl⟩ | ⟨response, received, stays, delivered⟩ | ⟨_, _, _, rfl⟩
  · exact absurd rfl opened
  · rw [deliver, captures] at delivered
    rcases deliverToFiles_cases delivered with ⟨_, rfl⟩ | ⟨framing, left, code⟩
    · exact absurd rfl opened
    · exact ⟨response, received, stays, framing, left, code⟩
  · exact absurd rfl opened

/-- A complete capture left a body file. -/
theorem bodyFile_of_complete {world : World} {call : Call} {visit : LoopState} {result : ℕ}
    {delivery : Delivery} {path : Bytes} (captures : call.bodyOutputPath = some path)
    (finished : turn world call visit = .finished (result, delivery))
    (complete : result ∈ [0, 9, 10]) : delivery.bodyFile ≠ none := by
  simp only [List.mem_cons, List.not_mem_nil, or_false] at complete
  rcases turn_eq_finished finished with
    ⟨code, failed, same, _⟩ | ⟨response, _, _, delivered⟩ | ⟨_, _, gaveUp, _⟩
  · have codes : exchangeFailure call.bodyOutputPath.isSome visit.current.useTls code ∈
        [4, 5, 6, 7, 11, 13, 14] := exchangeFailure_mem (oneRequest_error failed)
    rw [← same] at codes
    simp only [List.mem_cons, List.not_mem_nil, or_false] at codes
    omega
  · rw [deliver, captures] at delivered
    rcases deliverToFiles_cases delivered with ⟨codes, _⟩ | ⟨_, left, _⟩
    · omega
    · rw [left]
      simp
  · omega

/-! ## Captures -/

/-- What is left of the last response of a run: its bytes, the body file, and the metadata. -/
structure Captured (world : World) (outcome : Outcome) (head body : Bytes) (fields : ResponseHead) :
    Prop where
  answered : ∃ exchange chunks,
    outcome.exchanges[outcome.exchanges.length - 1]? = some exchange ∧
      world.server (outcome.exchanges.length - 1) exchange = .answered ⟨chunks, .closed⟩ ∧
      delivered chunks = head ++ body
  isHead : IsHead head
  bodyFile : outcome.delivery.bodyFile = some body
  bodyKept : world.files.body.flushes = true ∧ world.files.bodyCloses = true
  small : body.length ≤ maxCaptureBytes
  noCoding : Undeclared (ascii "Transfer-Encoding") head
  status : parseStatus head = some fields.status
  metadataFile : ∃ utf8, outcome.delivery.metadataFile = some (metadataText fields body.length utf8)
  metadataKept : world.files.metadata.prints = true ∧ world.files.metadata.closes = true

/-- The metadata of a capture are its text, kept or not. -/
theorem captureMetadata_eq {world : World} {call : Call} {response : Response} {path : Bytes}
    (metadataOutput : call.metadataOutputPath = some path) {metadata : Bytes}
    (handed : (captureMetadata world call response).2 = some metadata) :
    (captureMetadata world call response).1 =
        (world.files.metadata.prints && world.files.metadata.closes) ∧
      ∃ utf8, metadata =
        metadataText response.head (captureCopy world response).received utf8 := by
  unfold captureMetadata at handed ⊢
  rw [metadataOutput] at handed ⊢
  obtain ⟨kept, same⟩ := writeResponseMetadata_eq (Prod.ext rfl handed)
  exact ⟨kept, _, same⟩

theorem captureMetadata_written {world : World} {call : Call} {response : Response} {path : Bytes}
    (metadataOutput : call.metadataOutputPath = some path)
    (wrote : (captureMetadata world call response).1 = true) :
    ∃ metadata, (captureMetadata world call response).2 = some metadata := by
  unfold captureMetadata writeResponseMetadata at wrote ⊢
  rw [metadataOutput] at wrote ⊢
  dsimp only at wrote ⊢
  split at wrote
  · rename_i opens
    exact ⟨_, by rw [if_pos opens]⟩
  · cases wrote

/-- **A complete capture is a capture of the last response.** -/
theorem captured_of_complete {fuel : ℕ} {world : World} {call : Call} {outcome : Outcome}
    {bodyPath metadataPath : Bytes} (bodyOutput : call.bodyOutputPath = some bodyPath)
    (metadataOutput : call.metadataOutputPath = some metadataPath)
    (ran : sendRequest fuel world call = some outcome) (complete : outcome.result ∈ [0, 9, 10]) :
    ∃ head body fields, Captured world outcome head body fields ∧
      (Undeclared (ascii "Content-Length") head ∨ ∃ length, DeclaresLength head length) ∧
      parseResponseHead head = some fields ∧
      outcome.result = if ∃ length ∈ fields.contentLength, length ≠ body.length then 9
        else if fields.status < 200 ∨ fields.status ≥ 300 then 10 else 0 := by
  have sent : outcome.result ≠ 2 ∧ outcome.result ≠ 3 := by
    simp only [List.mem_cons, List.not_mem_nil, or_false] at complete
    omega
  obtain ⟨visit, last, counted, finished⟩ := last_exchange ran sent
  obtain ⟨response, received, _, framing, left, code⟩ :=
    delivered_of_bodyFile bodyOutput finished (bodyFile_of_complete bodyOutput finished complete)
  obtain ⟨⟨chunks, ending⟩, answered, accepted, sameEnding⟩ := oneRequest_ok received
  rw [code] at complete
  obtain ⟨kept, wrote⟩ := deliveryResult_complete complete
  have succeeded := Bool.and_eq_true_iff.mp kept
  obtain ⟨head, isHead, stream, parsed⟩ := readResponseHead_split accepted
  obtain ⟨closed, flushes, copy, small⟩ := copyRemainingBody_of_copied succeeded.1
  obtain ⟨status, _, _, _, refused, _⟩ := parseResponseHead_fields parsed
  obtain ⟨noCoding, lengths⟩ :=
    (framingRefused_eq_false_iff isHead.terminated).mp (refused.symm.trans framing)
  obtain ⟨metadata, handed⟩ := captureMetadata_written metadataOutput wrote
  obtain ⟨metadataKept, utf8, text⟩ := captureMetadata_eq metadataOutput handed
  have copy : captureCopy world response = ⟨true, 13, _, _⟩ := copy
  rw [wrote] at metadataKept
  rw [kept, wrote, deliveryResult_copied, copy] at code
  refine ⟨head, response.bodyPrefix ++ delivered response.connection.chunks, response.head,
    ⟨⟨visit.exchange call, chunks, last, ?_, stream⟩, isHead, ?_, ⟨flushes, succeeded.2⟩, small rfl,
      noCoding, status, ⟨utf8, ?_⟩, Bool.and_eq_true_iff.mp metadataKept.symm⟩, lengths, parsed,
        code⟩
  · rw [← counted, answered, ← closed, sameEnding]
  · rw [left, copy]
  · rw [left, handed, text, copy]

/-- A run that left a body file was not refused. -/
theorem sent_of_bodyFile {fuel : ℕ} {world : World} {call : Call} {outcome : Outcome}
    (ran : sendRequest fuel world call = some outcome) (opened : outcome.delivery.bodyFile ≠ none) :
    outcome.result ≠ 2 ∧ outcome.result ≠ 3 := by
  rcases sendRequest_eq_some ran with ⟨_, _, _, rfl⟩ | ⟨_, _, _, _, finished, _⟩
  · exact absurd rfl opened
  · obtain ⟨_, _, ended⟩ := turn_of_last finished
    exact ⟨(turn_result ended).1, (turn_result ended).2.1⟩

/-- A copy that holds the whole body was successful. -/
theorem captureCopy_of_whole {world : World} {response : Response} {body : Bytes}
    (closed : response.connection.ending = .closed)
    (whole : response.bodyPrefix ++ delivered response.connection.chunks = body)
    (written : (captureCopy world response).written = body)
    (flushes : world.files.body.flushes = true) (small : body.length ≤ maxCaptureBytes) :
    (captureCopy world response).copied = true ∧
      (captureCopy world response).received = body.length := by
  subst whole
  have connection : response.connection = ⟨response.connection.chunks, .closed⟩ := by
    rw [← closed]
  have smallPrefix : response.bodyPrefix.length ≤ maxCaptureBytes := by
    rw [List.length_append] at small
    omega
  have copied : (captureCopy world response).copied = true := by
    unfold captureCopy at written ⊢
    rw [connection] at written ⊢
    rw [copyRemainingBody_of_written written smallPrefix]
    exact flushes
  obtain ⟨_, _, copy, _⟩ := copyRemainingBody_of_copied copied
  exact ⟨copied, congrArg Copy.received copy⟩

/-- **A capture of a body of another length than the declared one is reported.** -/
theorem mismatch_of_captured {fuel : ℕ} {world : World} {call : Call} {outcome : Outcome}
    {bodyPath metadataPath head body : Bytes} {fields : ResponseHead} {length : ℕ}
    (bodyOutput : call.bodyOutputPath = some bodyPath)
    (metadataOutput : call.metadataOutputPath = some metadataPath)
    (ran : sendRequest fuel world call = some outcome)
    (captured : Captured world outcome head body fields) (declares : DeclaresLength head length)
    (differs : length ≠ body.length) : outcome.result = 9 := by
  have opened : outcome.delivery.bodyFile ≠ none := by
    rw [captured.bodyFile]
    exact Option.some_ne_none _
  obtain ⟨visit, last, counted, finished⟩ := last_exchange ran (sent_of_bodyFile ran opened)
  obtain ⟨response, received, _, _, left, code⟩ := delivered_of_bodyFile bodyOutput finished opened
  -- the connection of the last turn is the one the body came from
  obtain ⟨exchange, chunks, sent, answered, stream⟩ := captured.answered
  obtain rfl := Option.some.inj (last.symm.trans sent)
  rw [counted, answered] at received
  obtain ⟨_, same, accepted, ending⟩ := oneRequest_ok received
  obtain rfl := Answer.answered.inj same
  obtain ⟨parsed, whole, _⟩ := readResponseHead_accepted captured.isHead stream accepted
  obtain ⟨_, _, _, contentLength, _⟩ := parseResponseHead_fields parsed
  rw [declares.declaredLength captured.isHead.terminated] at contentLength
  -- everything was written and kept
  have written : (captureCopy world response).written = body := by
    have file := captured.bodyFile
    rw [left] at file
    exact Option.some.inj file
  obtain ⟨copied, receivedLength⟩ :=
    captureCopy_of_whole ending whole written captured.bodyKept.1 captured.small
  obtain ⟨utf8, metadataFile⟩ := captured.metadataFile
  rw [left] at metadataFile
  obtain ⟨kept, _⟩ := captureMetadata_eq metadataOutput metadataFile
  rw [captured.metadataKept.1, captured.metadataKept.2, Bool.and_self] at kept
  rw [copied, captured.bodyKept.2, kept, Bool.and_self, deliveryResult_copied,
    receivedLength] at code
  rw [code, if_pos ⟨length, contentLength, differs⟩]

/-- **Captures are sound.** A capture whose result is 0 or 10 holds the body of the last response,
which ended properly; its framing is valid, a declared length is that of the body, and the result
tells a successful status from the others. A declared length that differs from the body gives the
result 9. -/
theorem capture_sound (fuel : ℕ) (world : World) (call : Call) (outcome : Outcome)
    (bodyPath metadataPath : Bytes) (bodyOutput : call.bodyOutputPath = some bodyPath)
    (metadataOutput : call.metadataOutputPath = some metadataPath)
    (ran : sendRequest fuel world call = some outcome) :
    (outcome.result = 0 ∨ outcome.result = 10 →
      ∃ head body fields, Captured world outcome head body fields ∧
        (Undeclared (ascii "Content-Length") head ∨ DeclaresLength head body.length) ∧
        (outcome.result = 0 ↔ 200 ≤ fields.status ∧ fields.status ≤ 299)) ∧
    ∀ head body fields length, Captured world outcome head body fields →
      DeclaresLength head length → length ≤ maxCaptureBytes → length ≠ body.length →
        outcome.result = 9 := by
  constructor
  · intro success
    have complete : outcome.result ∈ [0, 9, 10] := by
      simp only [List.mem_cons, List.not_mem_nil, or_false]
      omega
    obtain ⟨head, body, fields, captured, lengths, parsed, result⟩ :=
      captured_of_complete bodyOutput metadataOutput ran complete
    obtain ⟨_, _, _, declared, _⟩ := parseResponseHead_fields parsed
    have matching : ¬ ∃ length ∈ fields.contentLength, length ≠ body.length := by
      intro mismatch
      rw [if_pos mismatch] at result
      omega
    rw [if_neg matching] at result
    refine ⟨head, body, fields, captured, lengths.imp_right ?_, ?_⟩
    · rintro ⟨length, declares⟩
      have read := declares.declaredLength captured.isHead.terminated
      have same : length = body.length := by
        by_contra differs
        exact matching ⟨length, declared.trans read, differs⟩
      exact same ▸ declares
    · rw [result]
      split
      · omega
      · omega
  · intro head body fields length captured declares _ differs
    exact mismatch_of_captured bodyOutput metadataOutput ran captured declares differs

/-- The GET with credentials, captured. -/
def capturedCall : Call :=
  { authorizedCall with
    bodyOutputPath := some (ascii "b")
    metadataOutputPath := some (ascii "m") }

/-- What its run leaves behind. -/
def capturedOutcome : Outcome :=
  ⟨[authorizedExchange, followedExchange], 0, ⟨[], some (ascii "hi"), some
    (ascii "http_status\t200\ncontent_type\tunknown\ncontent_encoding\tidentity\n" ++
      ascii "declared_length\t-1\nreceived_length\t2\nutf8\tvalid\n")⟩⟩

theorem sendRequest_capturedCall :
    sendRequest 9 redirectingOnce capturedCall = some capturedOutcome := by
  decide +kernel

/-- A server that declares a length of five bytes and sends two. -/
def miscounting : World :=
  { redirectingOnce with
    server := fun _ _ => answerOf "HTTP/1.0 200 OK\r\nContent-Length: 5\r\n\r\nhi" (by decide)
      (by decide) }

/-- The head it sends. -/
def miscountingHead : Bytes := ascii "HTTP/1.0 200 OK\r\nContent-Length: 5\r\n\r\n"

/-- What is left of a capture there. -/
def miscountedOutcome : Outcome :=
  (sendRequest 9 miscounting capturedCall).get (by decide +kernel)

theorem capture_sound_once_redirected :
    (∃ head body fields, Captured redirectingOnce capturedOutcome head body fields ∧
      200 ≤ fields.status ∧ fields.status ≤ 299) ∧
    ∃ fields, Captured miscounting miscountedOutcome miscountingHead (ascii "hi") fields ∧
      DeclaresLength miscountingHead 5 ∧ miscountedOutcome.result = 9 := by
  constructor
  · obtain ⟨head, body, fields, captured, _, result⟩ :=
      (capture_sound 9 redirectingOnce capturedCall capturedOutcome (ascii "b") (ascii "m") rfl rfl
        sendRequest_capturedCall).1 (Or.inl rfl)
    exact ⟨head, body, fields, captured, result.mp rfl⟩
  · have ran : sendRequest 9 miscounting capturedCall = some miscountedOutcome :=
      (Option.some_get _).symm
    have captured : Captured miscounting miscountedOutcome miscountingHead (ascii "hi")
        ⟨200, false, ⟨[], by decide⟩, some 5, ⟨[], by decide⟩, ⟨ascii "identity", by decide⟩,
          false⟩ :=
      { answered := ⟨authorizedExchange, _, by decide +kernel, rfl, by decide⟩
        isHead := by decide
        bodyFile := by decide +kernel
        bodyKept := ⟨rfl, rfl⟩
        small := by decide
        noCoding := by decide
        status := by decide
        metadataFile := ⟨true, by decide +kernel⟩
        metadataKept := ⟨rfl, rfl⟩ }
    have declares : DeclaresLength miscountingHead 5 :=
      ⟨[], ascii "Content-Length: 5\r", [[cr]], by decide, by decide, by decide, by decide,
        by decide,
        by decide, by decide, by decide, by decide⟩
    exact ⟨_, captured, declares, (capture_sound 9 miscounting capturedCall miscountedOutcome
      (ascii "b") (ascii "m") rfl rfl ran).2 miscountingHead (ascii "hi") _ 5 captured declares
        (by decide) (by decide)⟩

end IcuTransport.Client
