import IcuTransport.Client.Locations
import IcuTransport.Wire.Faults

/-!
# What the failure of a capture stands for

The failure of a capture is read from the failure code of the connection. `read_response_head` sets
that code to the one of a malformed response before it reads, and only a failed read and the limit
of a capture change it later. When the body output fails the code is still there, so a local fault
is reported as a malformed response (`result_of_localFault`). So is a head within the limit that
arrives with too much of its body (`malformed_of_overshot`). Nothing else is: otherwise a malformed
response is the fault of a server (`fault_of_malformed`).
-/

set_option autoImplicit false

namespace IcuTransport.Client

open Ascii TextScan TurnLoop Wire Redirect Capture

/-! ## Faults of a run -/

/-- The head of some response of the run is incomplete, too large or invalid, or the framing of the
last one is. -/
def RemoteFault (world : World) (outcome : Outcome) : Prop :=
  (∃ hop exchange connection, outcome.exchanges[hop]? = some exchange ∧
    world.server hop exchange = .answered connection ∧ HeadFault connection) ∨
  ∃ hop exchange response, outcome.exchanges.length = hop + 1 ∧
    outcome.exchanges[hop]? = some exchange ∧
    oneRequest (world.server hop exchange) = .ok response ∧ response.head.invalidFraming = true

/-- The head of some response of the run is within the limit and valid, but overshot. -/
def HeadOvershot (world : World) (outcome : Outcome) : Prop :=
  ∃ hop exchange connection, outcome.exchanges[hop]? = some exchange ∧
    world.server hop exchange = .answered connection ∧ Overshot connection

/-- The body output fails a response: a write, the flush, or, after a whole body, the close. -/
def BodyOutputFault (files : CaptureFiles) (response : Response) : Prop :=
  OutputFault files.body response.connection.ending 0 0
      (bodyPieces response.bodyPrefix response.connection.chunks) ∨
    (TakesAll files.body 0 0 (bodyPieces response.bodyPrefix response.connection.chunks) ∧
      response.connection.ending = .closed ∧ files.body.flushes = true ∧ files.bodyCloses = false)

/-- The last response of the run is accepted for a capture, with valid framing, and the body output
fails it. -/
def LocalFault (world : World) (outcome : Outcome) : Prop :=
  ∃ hop exchange response, outcome.exchanges.length = hop + 1 ∧
    outcome.exchanges[hop]? = some exchange ∧
    oneRequest (world.server hop exchange) = .ok response ∧
    canFollow exchange.request response.head = false ∧ response.head.invalidFraming = false ∧
    (∀ length ∈ response.head.contentLength, length ≤ maxCaptureBytes) ∧
    world.files.bodyOpens = true ∧ BodyOutputFault world.files response

/-! ## Faults of a delivery -/

section Deliveries

variable {world : World} {call : Call} {response : Response}

/-- **The body output fails a response** when the copy is not complete and the failure code is still
that of a malformed response. -/
theorem bodyOutputFault_iff :
    BodyOutputFault world.files response ↔
      ((captureCopy world response).copied && world.files.bodyCloses) = false ∧
        (captureCopy world response).failureCode = 13 := by
  have whole : (captureCopy world response).copied = true ↔
      TakesAll world.files.body 0 0 (bodyPieces response.bodyPrefix response.connection.chunks) ∧
        response.connection.ending = .closed ∧ world.files.body.flushes = true :=
    copyRemainingBody_copied_iff
  have failed : ((captureCopy world response).copied = false ∧
        (captureCopy world response).failureCode = 13) ↔
      OutputFault world.files.body response.connection.ending 0 0
        (bodyPieces response.bodyPrefix response.connection.chunks) :=
    copyRemainingBody_failed_iff
  constructor
  · rintro (fault | ⟨taken, closed, flushed, unclosed⟩)
    · obtain ⟨incomplete, code⟩ := failed.mpr fault
      exact ⟨by rw [incomplete, Bool.false_and], code⟩
    · have copied := whole.mpr ⟨taken, closed, flushed⟩
      refine ⟨by rw [unclosed, Bool.and_false], ?_⟩
      rw [captureCopy, (copyRemainingBody_of_copied copied).2.2.1]
  · rintro ⟨incomplete, code⟩
    cases copied : (captureCopy world response).copied with
    | false => exact Or.inl (failed.mp ⟨copied, code⟩)
    | true =>
        obtain ⟨taken, closed, flushed⟩ := whole.mp copied
        rw [copied, Bool.true_and] at incomplete
        exact Or.inr ⟨taken, closed, flushed, incomplete⟩

/-- The result of a malformed response is kept only by a copy that is not complete. -/
theorem deliveryResult_malformed {head : ResponseHead} {copied metadataWritten : Bool}
    {copyFailure received : ℕ} :
    deliveryResult true head copied metadataWritten copyFailure received = 13 ↔
      copied = false ∧ copyFailure = 13 := by
  unfold deliveryResult
  constructor
  · intro result
    split at result
    · split at result
      · rename_i failed
        exact ⟨failed.2.1, result⟩
      · cases result
    · split at result
      · cases result
      · split at result <;> cases result
  · rintro ⟨rfl, rfl⟩
    simp

/-- **When a capture is reported as malformed**: its framing is invalid, or the body output
fails. -/
theorem deliverToFiles_malformed_iff :
    (deliverToFiles world call response).1 = 13 ↔
      response.head.invalidFraming = true ∨
        ((∀ length ∈ response.head.contentLength, length ≤ maxCaptureBytes) ∧
          world.files.bodyOpens = true ∧ BodyOutputFault world.files response) := by
  rw [bodyOutputFault_iff]
  unfold deliverToFiles
  by_cases framing : response.head.invalidFraming = true
  · simp only [framing, if_true, true_or]
  · rw [if_neg framing]
    by_cases large : ∃ length ∈ response.head.contentLength, length > maxCaptureBytes
    · rw [if_pos large]
      obtain ⟨length, declared, exceeds⟩ := large
      refine iff_of_false (by decide) ?_
      rintro (invalid | ⟨small, _⟩)
      · exact framing invalid
      · have := small length declared
        omega
    · rw [if_neg large]
      have small : ∀ length ∈ response.head.contentLength, length ≤ maxCaptureBytes :=
        fun length declared => not_lt.mp fun exceeds => large ⟨length, declared, exceeds⟩
      by_cases opens : world.files.bodyOpens = false
      · rw [if_pos opens]
        refine iff_of_false (by decide) ?_
        rintro (invalid | ⟨_, opened, _⟩)
        · exact framing invalid
        · rw [opens] at opened
          cases opened
      · rw [if_neg opens]
        rw [Bool.not_eq_false] at opens
        refine deliveryResult_malformed.trans ?_
        simp only [framing, Bool.false_eq_true, false_or, opens, true_and]
        exact (and_iff_right small).symm

end Deliveries

/-! ## Faults of runs -/

section Runs

variable {fuel : ℕ} {world : World} {call : Call} {outcome : Outcome} {path : Bytes}

/-- **A local fault is reported as a malformed response.** -/
theorem result_of_localFault (captures : call.bodyOutputPath = some path)
    (ran : sendRequest fuel world call = some outcome) (fault : LocalFault world outcome) :
    outcome.result = 13 := by
  obtain ⟨hop, exchange, response, _, sent, received, stays, _, small, opens, failed⟩ := fault
  have code : outcome.result = _ :=
    congrArg Prod.fst (delivered_of_exchange ran sent received stays).2
  rw [code, deliver, captures]
  exact deliverToFiles_malformed_iff.mpr (Or.inr ⟨small, opens, failed⟩)

/-- The response to every exchange but the last one was accepted. -/
theorem accepted_of_earlier {hop : ℕ} {exchange : Exchange} {connection : Connection}
    (ran : sendRequest fuel world call = some outcome)
    (sent : outcome.exchanges[hop]? = some exchange) (earlier : hop + 1 < outcome.exchanges.length)
    (answered : world.server hop exchange = .answered connection) :
    ∃ fields bodyPrefix rest, readResponseHead connection = .accepted fields bodyPrefix rest := by
  obtain ⟨visit, rfl, rfl, ⟨later, went, _⟩ | ⟨_, length⟩⟩ := turn_of_exchange ran sent
  · obtain ⟨_, head, followed, _⟩ := turn_eq_next_iff.mp went
    unfold followable at followed
    cases received : oneRequest (world.server visit.redirects (visit.exchange call)) with
    | error code =>
        rw [received] at followed
        cases followed
    | ok response =>
        obtain ⟨same, answered', accepted, _⟩ := oneRequest_ok received
        obtain rfl := Answer.answered.inj (answered.symm.trans answered')
        exact ⟨_, _, _, accepted⟩
  · omega

/-- **An overshot head is reported as a malformed response**, and no server is at fault. -/
theorem malformed_of_overshot (captures : call.bodyOutputPath = some path)
    (ran : sendRequest fuel world call = some outcome) (overshot : HeadOvershot world outcome) :
    outcome.result = 13 ∧ ¬ RemoteFault world outcome := by
  obtain ⟨hop, exchange, connection, sent, answered, passed⟩ := overshot
  obtain ⟨faultless, reason, refused, malformed⟩ := refused_of_overshot passed
  have failed : oneRequest (world.server hop exchange) = .error 13 := by
    simp only [answered, oneRequest, refused, malformed]
  obtain ⟨length, result⟩ : outcome.exchanges.length = hop + 1 ∧ outcome.result = 13 := by
    obtain ⟨visit, rfl, rfl, ended⟩ := turn_of_exchange ran sent
    have gaveUp : turn world call visit = .finished (13, .nothing) := by
      simp only [turn, failed, exchangeFailure, captures]
      rfl
    rcases ended with ⟨later, went, _⟩ | ⟨finished, length⟩
    · cases gaveUp.symm.trans went
    · exact ⟨length, (Prod.mk.inj (Turn.finished.inj (finished.symm.trans gaveUp))).1⟩
  refine ⟨result, ?_⟩
  rintro (⟨hop', exchange', connection', sent', answered', fault⟩ |
    ⟨hop', exchange', response, length', sent', received, _⟩)
  · have within := (List.getElem?_eq_some_iff.mp sent').1
    by_cases same : hop' = hop
    · subst same
      obtain rfl := Option.some.inj (sent.symm.trans sent')
      obtain rfl := Answer.answered.inj (answered.symm.trans answered')
      exact faultless fault
    · obtain ⟨_, _, _, accepted⟩ := accepted_of_earlier ran sent' (by omega) answered'
      exact not_headFault_of_accepted accepted fault
  · obtain rfl : hop' = hop := by omega
    obtain rfl := Option.some.inj (sent.symm.trans sent')
    cases failed.symm.trans received

/-- An exchange that failed as malformed has a fault in its head, or an overshot one. -/
theorem headFault_of_error {answer : Answer} {code : ℕ} (failed : oneRequest answer = .error code)
    (malformed : code = 13) :
    ∃ connection, answer = .answered connection ∧ (HeadFault connection ∨ Overshot connection) := by
  subst malformed
  cases answer with
  | refused failure => cases failure <;> cases failed
  | unsent => cases failed
  | answered connection =>
      unfold oneRequest at failed
      dsimp only at failed
      split at failed
      · rename_i reason refused
        exact ⟨connection, rfl, headFault_or_overshot refused (Except.error.inj failed)⟩
      · cases failed

/-- **A malformed response is the fault of a server, an overshot head or a local fault.** -/
theorem fault_of_malformed (captures : call.bodyOutputPath = some path)
    (ran : sendRequest fuel world call = some outcome) (malformed : outcome.result = 13) :
    RemoteFault world outcome ∨ HeadOvershot world outcome ∨ LocalFault world outcome := by
  obtain ⟨visit, sent, hop, finished⟩ := last_exchange ran (by rw [malformed]; decide)
  have positive : 0 < outcome.exchanges.length := by
    have within := (List.getElem?_eq_some_iff.mp sent).1
    omega
  rcases turn_eq_finished finished with
    ⟨code, failed, result, _⟩ | ⟨response, received, stays, delivered⟩ | ⟨_, _, gaveUp, _⟩
  · have same : code = 13 := by
      rw [exchangeFailure, captures] at result
      simpa [malformed] using result.symm
    obtain ⟨connection, answered, fault | overshot⟩ := headFault_of_error failed same
    · rw [hop] at answered
      exact Or.inl (Or.inl ⟨_, _, connection, sent, answered, fault⟩)
    · rw [hop] at answered
      exact Or.inr (Or.inl ⟨_, _, connection, sent, answered, overshot⟩)
  · have code : outcome.result = _ := congrArg Prod.fst delivered
    rw [deliver, captures, malformed] at code
    rw [hop] at received
    have length : outcome.exchanges.length = outcome.exchanges.length - 1 + 1 := by omega
    by_cases framing : response.head.invalidFraming = true
    · exact Or.inl (Or.inr ⟨_, _, response, length, sent, received, framing⟩)
    · obtain ⟨small, opens, fault⟩ :=
        (deliverToFiles_malformed_iff.mp code.symm).resolve_left framing
      exact Or.inr (Or.inr ⟨_, _, response, length, sent, received, stays, by simpa using framing,
        small, opens, fault⟩)
  · rw [malformed] at gaveUp
    cases gaveUp

end Runs

/-- **Failure classes are apart exactly without a local fault and without an overshot head.** In a
run without them, a malformed response is the fault of a server. A run with one of them is reported
as malformed, whoever is at fault. -/
theorem failure_classes_iff (fuel : ℕ) (world : World) (call : Call) (outcome : Outcome)
    (path : Bytes) (captures : call.bodyOutputPath = some path)
    (ran : sendRequest fuel world call = some outcome) :
    ((outcome.result = 13 → RemoteFault world outcome) ∧
        (LocalFault world outcome → outcome.result = 7)) ↔
      ¬ LocalFault world outcome ∧ ¬ HeadOvershot world outcome := by
  constructor
  · rintro ⟨remote, classified⟩
    constructor
    · intro fault
      have result := classified fault
      rw [result_of_localFault captures ran fault] at result
      cases result
    · intro overshot
      obtain ⟨result, faultless⟩ := malformed_of_overshot captures ran overshot
      exact faultless (remote result)
  · rintro ⟨sound, within⟩
    refine ⟨fun malformed => ?_, fun fault => absurd fault sound⟩
    exact ((fault_of_malformed captures ran malformed).resolve_right
      fun other => other.elim within sound)

/-- Nothing fails when the output takes everything. -/
theorem not_localFault_redirectingOnce : ¬ LocalFault redirectingOnce capturedOutcome := by
  rintro ⟨_, _, response, _, _, _, _, _, _, _, (⟨_, _, _, _, _, _, short⟩ | ⟨_, _, unflushed⟩) |
    ⟨_, _, _, unclosed⟩⟩
  · exact short rfl
  · cases unflushed
  · cases unclosed

/-- Each of its two responses arrives in one read. -/
theorem not_headOvershot_redirectingOnce : ¬ HeadOvershot redirectingOnce capturedOutcome := by
  rintro ⟨hop, exchange, connection, _, answered, head, body, stream, _, _, _, beyond⟩
  have single : ∀ chunk : Chunk, connection ≠ ⟨[chunk], .closed⟩ := by
    rintro chunk rfl
    have within := congrArg List.length stream
    rw [delivered_cons, delivered_nil, List.append_nil, List.length_append] at within
    have large := beyond [chunk] [] rfl (by
      simp only [delivered_cons, delivered_nil, List.append_nil]
      omega)
    rw [delivered_cons, delivered_nil, List.append_nil] at large
    have fits := chunk.fits
    have limits : readCapacity < maxHeaderBytes := by decide
    omega
  unfold redirectingOnce redirectAnswer answerOf at answered
  dsimp only at answered
  split at answered
  · exact single _ (Answer.answered.inj answered).symm
  · exact single _ (Answer.answered.inj answered).symm

theorem failure_classes_iff_once_redirected :
    (capturedOutcome.result = 13 → RemoteFault redirectingOnce capturedOutcome) ∧
      (LocalFault redirectingOnce capturedOutcome → capturedOutcome.result = 7) :=
  (failure_classes_iff 9 redirectingOnce capturedCall capturedOutcome (ascii "b") rfl
    sendRequest_capturedCall).mpr
    ⟨not_localFault_redirectingOnce, not_headOvershot_redirectingOnce⟩

/-- The same server, with a body file that takes nothing. -/
def fullDisk : World :=
  { redirectingOnce with
    files := ⟨true, ⟨fun _ => .short 0, true⟩, true, true, ⟨true, true, true⟩⟩ }

/-- What the captured call leaves behind there. -/
def fullDiskOutcome : Outcome :=
  ⟨[authorizedExchange, followedExchange], 13, ⟨[], some [], some
    (ascii "http_status\t200\ncontent_type\tunknown\ncontent_encoding\tidentity\n" ++
      ascii "declared_length\t-1\nreceived_length\t0\nutf8\tvalid\n")⟩⟩

/-- A full disk is reported as a malformed response. -/
theorem fullDisk_malformed :
    sendRequest 9 fullDisk capturedCall = some fullDiskOutcome ∧
      LocalFault fullDisk fullDiskOutcome ∧ fullDiskOutcome.result ≠ 7 := by
  refine ⟨by decide +kernel, ?_, by decide⟩
  refine ⟨1, followedExchange, ⟨⟨200, false, ⟨[], by decide⟩, none, ⟨[], by decide⟩,
    ⟨ascii "identity", by decide⟩, false⟩, ascii "hi", ⟨[], .closed⟩⟩, rfl, rfl, by decide +kernel,
    by decide, rfl, ?_, rfl, Or.inl (Or.inl ⟨[], ascii "hi", [], rfl, ?_, by decide, ?_⟩)⟩
  · rintro _ ⟨⟩
  · exact takesAll_nil.mpr (Nat.zero_le _)
  · exact Bool.false_ne_true

end IcuTransport.Client
