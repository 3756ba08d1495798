import IcuTransport.Client.Capturing
import IcuTransport.Connect.Receiving

/-!
# How the network cuts the streams

What a server sends reaches the program in some number of reads, and signals may interrupt it while
it waits. Two worlds carry the same streams when every exchange is answered with the same bytes and
the same end of them (`SameStream`), however these are cut.

A run that came to an end on what the servers sent, and not on a limit of the program or a failure
of the system, is decided by the streams: in every world that carries the same ones, a run that also
comes to such an end makes the same exchanges, returns the same result and leaves the same behind
(`runs_unsegmented`). Interrupted receives never change a run (`sendRequest_uninterrupted`).
-/

set_option autoImplicit false

namespace IcuTransport.Client

open Ascii TextScan TurnLoop Wire Redirect Capture Connect

/-! ## Answers, call by call -/

/-- What becomes of an exchange: no connection is opened, the request cannot be written, or the
calls that receive the response have these outcomes. -/
inductive CallsAnswer where
  | refused (failure : OpenFailure)
  | unsent
  | answered (record : ConnectionRecord) (calls : List ReadCall)

/-- The answer that the calls make. -/
def CallsAnswer.answer : CallsAnswer → Answer
  | .refused failure => .refused failure
  | .unsent => .unsent
  | .answered record calls => .answered (connectionOf record calls)

/-- The world whose servers answer so. -/
def World.answeredBy (world : World) (server : ℕ → Exchange → CallsAnswer) : World :=
  { world with server := fun hop exchange => (server hop exchange).answer }

/-- The calls without those that a signal interrupted. -/
def uninterrupted (calls : List ReadCall) : List ReadCall := calls.filter (· ≠ .failed .eintr)

/-- The answer without interrupted receives. Over TLS nothing is made again. -/
def CallsAnswer.uninterrupted : CallsAnswer → CallsAnswer
  | .answered record calls =>
      .answered record (if record.tls.isNone then Client.uninterrupted calls else calls)
  | other => other

theorem connectionOf_uninterrupted {record : ConnectionRecord} (plain : record.tls.isNone)
    (calls : List ReadCall) :
    connectionOf record (uninterrupted calls) = connectionOf record calls := by
  induction calls with
  | nil => rfl
  | cons call rest ih =>
      unfold uninterrupted at ih ⊢
      by_cases interrupted : call = .failed .eintr
      · subst interrupted
        rw [List.filter_cons_of_neg (by simp), ih]
        exact (connectionOf_interrupted plain [] rest).symm
      · rw [List.filter_cons_of_pos (by simpa using interrupted)]
        cases call with
        | delivered chunk => simp only [connectionOf, ih]
        | ended => rfl
        | waiting => rfl
        | failed errno => simp only [connectionOf, ih]

theorem answer_uninterrupted (answer : CallsAnswer) :
    answer.uninterrupted.answer = answer.answer := by
  cases answer with
  | refused failure => rfl
  | unsent => rfl
  | answered record calls =>
      unfold CallsAnswer.uninterrupted CallsAnswer.answer
      dsimp only
      split
      · rename_i plain
        rw [connectionOf_uninterrupted plain]
      · rfl

/-- **Interrupted receives never change a run**, whatever comes of it. -/
theorem sendRequest_uninterrupted (fuel : ℕ) (world : World)
    (server : ℕ → Exchange → CallsAnswer) (call : Call) :
    sendRequest fuel (world.answeredBy fun hop exchange => (server hop exchange).uninterrupted)
        call =
      sendRequest fuel (world.answeredBy server) call := by
  simp only [World.answeredBy, answer_uninterrupted]

/-! ## Streams -/

/-- The answers carry the same stream: the same bytes, and the same end of them. -/
def SameStream : Answer → Answer → Prop
  | .answered first, .answered second =>
      delivered first.chunks = delivered second.chunks ∧ first.ending = second.ending
  | first, second => first = second

/-- Two responses that say the same, with their bodies in different pieces. -/
structure SameResponse (first second : Response) : Prop where
  head : first.head = second.head
  body : first.bodyPrefix ++ delivered first.connection.chunks =
    second.bodyPrefix ++ delivered second.connection.chunks

/-- **The same stream holds the same response**, if a head is accepted in both of its cuts. -/
theorem sameResponse_of_sameStream {first second : Answer} {response response' : Response}
    (same : SameStream first second) (accepted : oneRequest first = .ok response)
    (accepted' : oneRequest second = .ok response') : SameResponse response response' := by
  obtain ⟨connection, rfl, read, _⟩ := oneRequest_ok accepted
  obtain ⟨connection', rfl, read', _⟩ := oneRequest_ok accepted'
  obtain ⟨head, isHead, split, parsed⟩ := readResponseHead_split read
  have stream : delivered connection'.chunks =
      head ++ (response.bodyPrefix ++ delivered response.connection.chunks) :=
    same.1.symm.trans split
  obtain ⟨parsed', body, _⟩ := readResponseHead_accepted isHead stream read'
  exact ⟨Option.some.inj (parsed.symm.trans parsed'), body.symm⟩

/-! ## Deliveries -/

/-- The results of a run that came to an end on what the servers sent: a response was received
whole, or a redirect was not followed. -/
def conclusive : List ℕ := [0, 8, 9, 10]

/-- A failed copy never gives such a result. -/
theorem copied_of_conclusive {captures copied metadataWritten : Bool} {head : ResponseHead}
    {copyFailure received : ℕ}
    (concludes : deliveryResult captures head copied metadataWritten copyFailure received ∈
      conclusive) : copied = true := by
  cases copied with
  | true => rfl
  | false =>
      unfold deliveryResult at concludes
      rw [if_pos (Or.inl rfl)] at concludes
      simp only [conclusive, List.mem_cons, List.not_mem_nil, or_false] at concludes
      split at concludes
      · omega
      · omega

/-- Copies of the same body that succeed are the same. -/
theorem copyRemainingBody_congr {toFile : Bool} {stream : OutputStream} {first second : Response}
    (same : SameResponse first second)
    (copied : (copyRemainingBody toFile stream first.connection 13 first.bodyPrefix).copied = true)
    (copied' : (copyRemainingBody toFile stream second.connection 13
      second.bodyPrefix).copied = true) :
    copyRemainingBody toFile stream first.connection 13 first.bodyPrefix =
      copyRemainingBody toFile stream second.connection 13 second.bodyPrefix := by
  obtain ⟨_, _, whole, _⟩ := copyRemainingBody_of_copied copied
  obtain ⟨_, _, whole', _⟩ := copyRemainingBody_of_copied copied'
  rw [whole, whole', same.body]

theorem deliver_congr {world : World} {call : Call} {first second : Response}
    (same : SameResponse first second) (concludes : (deliver world call first).1 ∈ conclusive)
    (concludes' : (deliver world call second).1 ∈ conclusive) :
    deliver world call first = deliver world call second := by
  unfold deliver at concludes concludes' ⊢
  cases paths : call.bodyOutputPath with
  | none =>
      rw [paths] at concludes concludes'
      have equal := copyRemainingBody_congr same (copied_of_conclusive concludes)
        (copied_of_conclusive concludes')
      simp only [deliverToStdout, equal, same.head]
  | some path =>
      rw [paths] at concludes concludes'
      simp only [deliverToFiles, same.head] at concludes concludes' ⊢
      split
      · rfl
      · split
        · rfl
        · split
          · rfl
          · rename_i framed small opened
            rw [if_neg framed, if_neg small, if_neg opened] at concludes concludes'
            have copied := copied_of_conclusive concludes
            have copied' := copied_of_conclusive concludes'
            rw [Bool.and_eq_true] at copied copied'
            rw [copyRemainingBody_congr same copied.1 copied'.1]

/-! ## Turns and runs -/

section Runs

variable {world : World} {first second : ℕ → Exchange → CallsAnswer} {call : Call}

/-- A turn that does not fail has accepted a head. -/
theorem oneRequest_of_among {state : LoopState}
    (well : (turn world call state).Among fun result => result.1 ∈ conclusive) :
    ∃ response, oneRequest (world.server state.redirects (state.exchange call)) = .ok response := by
  cases received : oneRequest (world.server state.redirects (state.exchange call)) with
  | ok response => exact ⟨response, rfl⟩
  | error code =>
      unfold turn at well
      rw [received] at well
      have failed : exchangeFailure call.bodyOutputPath.isSome state.current.useTls code ∈
        [4, 5, 6, 7, 11, 13, 14] := exchangeFailure_mem (oneRequest_error received)
      have concludes : exchangeFailure call.bodyOutputPath.isSome state.current.useTls code ∈
        conclusive := well
      simp only [conclusive, List.mem_cons, List.not_mem_nil, or_false] at failed concludes
      omega

/-- **Turns on the same stream are the same**, when neither of them fails. -/
theorem turn_congr
    (alike : ∀ hop exchange, SameStream (first hop exchange).answer (second hop exchange).answer)
    (state : LoopState)
    (well : (turn (world.answeredBy first) call state).Among fun result =>
      result.1 ∈ conclusive)
    (well' : (turn (world.answeredBy second) call state).Among fun result =>
      result.1 ∈ conclusive) :
    turn (world.answeredBy first) call state = turn (world.answeredBy second) call state := by
  obtain ⟨response, received⟩ := oneRequest_of_among well
  obtain ⟨response', received'⟩ := oneRequest_of_among well'
  have same := sameResponse_of_sameStream (alike state.redirects (state.exchange call)) received
    received'
  unfold turn at well well' ⊢
  rw [received] at well ⊢
  rw [received'] at well' ⊢
  simp only [same.head] at well well' ⊢
  split
  · rename_i stays
    rw [if_pos stays] at well well'
    exact congrArg Turn.finished (deliver_congr same well well')
  · rfl

end Runs

/-- **The cuts of the streams do not decide a run.** Two worlds that differ only in how the bytes
that the servers send are cut into reads, and in where receives are interrupted: if the run in each
of them ends on what the servers sent (with the result 0, 8, 9 or 10), the two runs make the same
exchanges, return the same result and leave the same behind. -/
theorem runs_unsegmented (world : World) (first second : ℕ → Exchange → CallsAnswer) (call : Call)
    (alike : ∀ hop exchange, SameStream (first hop exchange).answer (second hop exchange).answer)
    (fuel fuel' : ℕ) (outcome outcome' : Outcome)
    (ran : sendRequest fuel (world.answeredBy first) call = some outcome)
    (ran' : sendRequest fuel' (world.answeredBy second) call = some outcome')
    (concludes : outcome.result ∈ conclusive) (concludes' : outcome'.result ∈ conclusive) :
    outcome = outcome' := by
  have begins : start (world.answeredBy first) call = start (world.answeredBy second) call := rfl
  rcases sendRequest_eq_some ran with ⟨code, _, invalid, rfl⟩ | ⟨state, visits, began, _, run, all⟩
  · simp only [conclusive, List.mem_cons, List.not_mem_nil, or_false] at concludes
    omega
  rcases sendRequest_eq_some ran' with
    ⟨code, _, invalid, rfl⟩ | ⟨state', visits', began', _, run', all'⟩
  · simp only [conclusive, List.mem_cons, List.not_mem_nil, or_false] at concludes'
    omega
  obtain rfl := Except.ok.inj (began.symm.trans (begins.trans began'))
  obtain ⟨rfl, result⟩ := run_unique (turn_congr alike) run run' concludes concludes'
  obtain ⟨exchanges, result₁, delivery₁⟩ := outcome
  obtain ⟨exchanges', result₂, delivery₂⟩ := outcome'
  obtain ⟨rfl, rfl⟩ := Prod.mk.inj result
  rw [Outcome.mk.injEq]
  exact ⟨all.trans all'.symm, rfl, rfl⟩

/-- A server that sends one response, in the reads that the calls make. -/
def sending (calls : List ReadCall) : ℕ → Exchange → CallsAnswer :=
  fun _ _ => .answered ⟨some ⟨.socket, 3⟩, none, none, 0⟩ calls

/-- The bytes of a text in one read. -/
def readOf (text : String) (filled : ascii text ≠ []) (fits : (ascii text).length ≤ readCapacity) :
    ReadCall :=
  .delivered ⟨ascii text, filled, fits⟩

/-- A response that arrives in one read. -/
def readAtOnce : List ReadCall :=
  [readOf "HTTP/1.1 200 OK\r\n\r\nhi" (by decide) (by decide), .ended]

/-- The same response in three reads, the second of them interrupted first. -/
def readInPieces : List ReadCall :=
  [readOf "HTTP/1.1 200 OK\r\n\r" (by decide) (by decide), .failed .eintr,
    readOf "\nh" (by decide) (by decide), readOf "i" (by decide) (by decide), .ended]

theorem runs_unsegmented_in_pieces :
    ∃ outcome,
      sendRequest 9 (redirectingOnce.answeredBy (sending readAtOnce)) authorizedCall =
        some outcome ∧
      sendRequest 9 (redirectingOnce.answeredBy (sending readInPieces)) authorizedCall =
        some outcome ∧
      outcome.result = 0 := by
  have alike : SameStream (sending readAtOnce 0 authorizedExchange).answer
      (sending readInPieces 0 authorizedExchange).answer :=
    ⟨by decide, rfl⟩
  have whole : ∀ calls ∈ [readAtOnce, readInPieces],
      (sendRequest 9 (redirectingOnce.answeredBy (sending calls)) authorizedCall).map
        Outcome.result = some 0 := by
    decide +kernel
  obtain ⟨outcome, ran, result⟩ := Option.map_eq_some_iff.mp (whole readAtOnce (by simp))
  obtain ⟨outcome', ran', result'⟩ := Option.map_eq_some_iff.mp (whole readInPieces (by simp))
  have same := runs_unsegmented redirectingOnce (sending readAtOnce) (sending readInPieces)
    authorizedCall (fun _ _ => alike) 9 9 outcome outcome' ran ran' (by simp [conclusive, result])
    (by simp [conclusive, result'])
  exact ⟨outcome, ran, same ▸ ran', result⟩

end IcuTransport.Client
