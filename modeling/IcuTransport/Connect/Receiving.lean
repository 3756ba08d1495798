import IcuTransport.Connect.Transfer

/-!
# Receiving, call by call

`readSome` embeds `read_some` over the outcomes of single calls. A `recv` that is interrupted by a
signal is made again. A call of `SSL_read` is made once, and one that would have to wait has timed
out. The two loops that receive a response appear here on top of it.

What a connection delivers is read off the outcomes of its calls (`connectionOf`), and the loops do
with the calls what the loops of `Wire.Reading` do with that connection
(`readResponseHeadCalls_eq`, `copyRemainingBodyCalls_eq`, `receive_eq`). Interrupted calls are not
part of it (`connectionOf_interrupted`).
-/

set_option autoImplicit false

namespace IcuTransport.Connect

open Ascii TextScan Wire

/-! ## One call -/

/-- The outcome of one `recv` or `SSL_read`: some bytes, the end of the stream,
`SSL_ERROR_WANT_READ` or `SSL_ERROR_WANT_WRITE`, or another failure with the `errno` after it. -/
inductive ReadCall where
  | delivered (chunk : Chunk)
  | ended
  | waiting
  | failed (errno : Errno)
  deriving DecidableEq, Repr

/-- What `read_some` returns: an amount of bytes, zero, or a failure that timed out or did not. -/
inductive SomeRead where
  | amount (chunk : Chunk)
  | ended
  | failed (timedOut : Bool)
  deriving DecidableEq, Repr

/-- `read_some`, with the calls that are left. A schedule that is used up fails. -/
def readSome (record : ConnectionRecord) : List ReadCall → SomeRead × List ReadCall
  | [] => (.failed false, [])
  | .delivered chunk :: rest => (.amount chunk, rest)
  | .ended :: rest => (.ended, rest)
  | .waiting :: rest => (.failed true, rest)
  | .failed errno :: rest =>
      if record.tls.isNone ∧ errno = .eintr then readSome record rest
      else (.failed (isTimeout errno), rest)

/-- A read that gives bytes takes a call. -/
theorem length_readSome {record : ConnectionRecord} {calls rest : List ReadCall} {chunk : Chunk}
    (read : readSome record calls = (.amount chunk, rest)) : rest.length < calls.length := by
  induction calls with
  | nil => cases read
  | cons call later ih =>
      cases call with
      | delivered other =>
          obtain ⟨-, rfl⟩ := Prod.mk.inj read
          exact Nat.lt_succ_self _
      | ended => cases read
      | waiting => cases read
      | failed errno =>
          rw [readSome] at read
          split at read
          · exact lt_trans (ih read) (Nat.lt_succ_self _)
          · cases read

/-! ## The loops -/

/-- What happens to a complete head and the bytes read after it. -/
def finishHeadCalls (head available : Bytes) (rest : List ReadCall) :
    Except HeadRefusal (ResponseHead × Bytes × List ReadCall) :=
  match parseResponseHead head with
  | none => .error .invalidStatusLine
  | some fields =>
      if available.length > readCapacity then .error .prefixTooLarge
      else .ok (fields, available, rest)

/-- The loop of `read_response_head`, after reads that held the given bytes. -/
def readHeadLoopCalls (record : ConnectionRecord) (calls : List ReadCall) (headers : Bytes) :
    Except HeadRefusal (ResponseHead × Bytes × List ReadCall) :=
  if headers.length < maxHeaderBytes then
    match _ : readSome record calls with
    | (.ended, _) => .error .endedBeforeHeaders
    | (.failed timedOut, _) => .error (.readFailed timedOut)
    | (.amount chunk, rest) =>
        if headers.length + chunk.bytes.length > maxHeaderBytes then .error .headersTooLarge
        else
          match findHeaderEnd (headers ++ chunk.bytes) with
          | some (head, available) => finishHeadCalls head available rest
          | none => readHeadLoopCalls record rest (headers ++ chunk.bytes)
  else .error .headersTooLarge
termination_by calls.length
decreasing_by exact length_readSome (by assumption)

/-- `read_response_head`: the head, the part of the body read along with it and the calls that are
left, or a refusal. -/
def readResponseHeadCalls (record : ConnectionRecord) (calls : List ReadCall) :
    Except HeadRefusal (ResponseHead × Bytes × List ReadCall) :=
  readHeadLoopCalls record calls []

/-- The loop of `copy_remaining_body`, after so many writes. -/
def copyLoopCalls (record : ConnectionRecord) (toFile : Bool) (stream : OutputStream)
    (failure : ℕ) (calls : List ReadCall) (writes received : ℕ) (written : Bytes) : Copy :=
  match _ : readSome record calls with
  | (.ended, _) => ⟨stream.flushes, failure, received, written⟩
  | (.failed timedOut, _) => ⟨false, readFailureCode timedOut, received, written⟩
  | (.amount chunk, rest) =>
      if toFile ∧ chunk.bytes.length > captureRoom received then ⟨false, 12, received, written⟩
      else
        match writeOutput (stream.writes writes) chunk.bytes with
        | (taken, true) =>
            copyLoopCalls record toFile stream failure rest (writes + 1)
              (received + chunk.bytes.length) (written ++ taken)
        | (taken, false) => ⟨false, failure, received, written ++ taken⟩
termination_by calls.length
decreasing_by exact length_readSome (by assumption)

/-- `copy_remaining_body`. -/
def copyRemainingBodyCalls (record : ConnectionRecord) (toFile : Bool) (stream : OutputStream)
    (calls : List ReadCall) (failure : ℕ) (bodyPrefix : Bytes) : Copy :=
  if toFile ∧ bodyPrefix.length > maxCaptureBytes then ⟨false, 12, 0, []⟩
  else if bodyPrefix = [] then copyLoopCalls record toFile stream failure calls 0 0 []
  else
    match writeOutput (stream.writes 0) bodyPrefix with
    | (taken, true) =>
        copyLoopCalls record toFile stream failure calls 1 bodyPrefix.length taken
    | (taken, false) => ⟨false, failure, 0, taken⟩

/-! ## What a connection delivers -/

/-- The connection that the outcomes of the calls make. -/
def connectionOf (record : ConnectionRecord) : List ReadCall → Connection
  | [] => ⟨[], .failed false⟩
  | .delivered chunk :: rest =>
      ⟨chunk :: (connectionOf record rest).chunks, (connectionOf record rest).ending⟩
  | .ended :: _ => ⟨[], .closed⟩
  | .waiting :: _ => ⟨[], .failed true⟩
  | .failed errno :: rest =>
      if record.tls.isNone ∧ errno = .eintr then connectionOf record rest
      else ⟨[], .failed (isTimeout errno)⟩

/-- What one read takes of the connection. -/
theorem connectionOf_readSome (record : ConnectionRecord) (calls : List ReadCall) :
    connectionOf record calls =
      match readSome record calls with
      | (.amount chunk, rest) =>
          ⟨chunk :: (connectionOf record rest).chunks, (connectionOf record rest).ending⟩
      | (.ended, _) => ⟨[], .closed⟩
      | (.failed timedOut, _) => ⟨[], .failed timedOut⟩ := by
  induction calls with
  | nil => rfl
  | cons call rest ih =>
      cases call with
      | delivered chunk => rfl
      | ended => rfl
      | waiting => rfl
      | failed errno =>
          rw [connectionOf, readSome]
          split
          · exact ih
          · rfl

/-- The outcome of reading a head, seen in the connection. -/
def headReadOf (record : ConnectionRecord) :
    Except HeadRefusal (ResponseHead × Bytes × List ReadCall) → HeadRead
  | .error reason => .refused reason
  | .ok (fields, bodyPrefix, rest) => .accepted fields bodyPrefix (connectionOf record rest).chunks

theorem headReadOf_finishHeadCalls (record : ConnectionRecord) (head available : Bytes)
    (rest : List ReadCall) :
    headReadOf record (finishHeadCalls head available rest) =
      finishHead head available (connectionOf record rest).chunks := by
  unfold finishHeadCalls finishHead
  cases parseResponseHead head with
  | none => rfl
  | some fields =>
      dsimp only
      split
      · rfl
      · rfl

theorem readHeadLoopCalls_eq (record : ConnectionRecord) (calls : List ReadCall) (headers : Bytes) :
    headReadOf record (readHeadLoopCalls record calls headers) =
      readHeadLoop (connectionOf record calls).ending (connectionOf record calls).chunks
        headers := by
  fun_induction readHeadLoopCalls record calls headers with
  | case1 calls headers room rest read =>
      rw [connectionOf_readSome, read]
      simp only [readHeadLoop, if_pos room]
      rfl
  | case2 calls headers room timedOut rest read =>
      rw [connectionOf_readSome, read]
      simp only [readHeadLoop, if_pos room]
      rfl
  | case3 calls headers room chunk rest read large =>
      rw [connectionOf_readSome, read]
      simp only [readHeadLoop, if_pos room, if_pos large]
      rfl
  | case4 calls headers room chunk rest read small head available found =>
      rw [connectionOf_readSome, read]
      simp only [readHeadLoop, if_pos room, if_neg small, found]
      exact headReadOf_finishHeadCalls record head available rest
  | case5 calls headers room chunk rest read small found ih =>
      rw [connectionOf_readSome, read]
      simp only [readHeadLoop, if_pos room, if_neg small, found]
      exact ih
  | case6 calls headers full =>
      cases chunks : (connectionOf record calls).chunks with
      | nil =>
          unfold readHeadLoop
          rw [if_neg full]
          rfl
      | cons chunk rest =>
          unfold readHeadLoop
          rw [if_neg full]
          rfl

/-- **The head is read as from the connection that the calls make.** -/
theorem readResponseHeadCalls_eq (record : ConnectionRecord) (calls : List ReadCall) :
    headReadOf record (readResponseHeadCalls record calls) =
      readResponseHead (connectionOf record calls) := readHeadLoopCalls_eq record calls []

/-- The calls that are left end as all of them do. -/
theorem ending_of_readHeadLoopCalls {record : ConnectionRecord} {calls rest : List ReadCall}
    {headers bodyPrefix : Bytes} {fields : ResponseHead}
    (accepted : readHeadLoopCalls record calls headers = .ok (fields, bodyPrefix, rest)) :
    (connectionOf record rest).ending = (connectionOf record calls).ending := by
  fun_induction readHeadLoopCalls record calls headers with
  | case1 calls headers room later read => cases accepted
  | case2 calls headers room timedOut later read => cases accepted
  | case3 calls headers room chunk later read large => cases accepted
  | case4 calls headers room chunk later read small head available found =>
      rw [connectionOf_readSome record calls, read]
      unfold finishHeadCalls at accepted
      split at accepted
      · cases accepted
      · split at accepted
        · cases accepted
        · obtain ⟨-, rest⟩ := Prod.mk.inj (Except.ok.inj accepted)
          rw [(Prod.mk.inj rest).2]
  | case5 calls headers room chunk later read small found ih =>
      rw [connectionOf_readSome record calls, read]
      exact ih accepted
  | case6 calls headers full => cases accepted

theorem copyLoopCalls_eq (record : ConnectionRecord) (toFile : Bool) (stream : OutputStream)
    (failure : ℕ) (calls : List ReadCall) (writes received : ℕ) (written : Bytes) :
    copyLoopCalls record toFile stream failure calls writes received written =
      copyLoop toFile stream (connectionOf record calls).ending failure
        (connectionOf record calls).chunks writes received written := by
  fun_induction copyLoopCalls record toFile stream failure calls writes received written with
  | case1 calls writes received written rest read =>
      rw [connectionOf_readSome, read]
      rfl
  | case2 calls writes received written timedOut rest read =>
      rw [connectionOf_readSome, read]
      rfl
  | case3 calls writes received written chunk rest read large =>
      rw [connectionOf_readSome, read]
      rw [copyLoop, if_pos large]
  | case4 calls writes received written chunk rest read small taken wrote ih =>
      rw [connectionOf_readSome, read]
      simp only [copyLoop, if_neg small, wrote]
      exact ih
  | case5 calls writes received written chunk rest read small taken wrote =>
      rw [connectionOf_readSome, read]
      simp only [copyLoop, if_neg small, wrote]

/-- **The body is copied as from the connection that the calls make.** -/
theorem copyRemainingBodyCalls_eq (record : ConnectionRecord) (toFile : Bool)
    (stream : OutputStream) (calls : List ReadCall) (failure : ℕ) (bodyPrefix : Bytes) :
    copyRemainingBodyCalls record toFile stream calls failure bodyPrefix =
      copyRemainingBody toFile stream (connectionOf record calls) failure bodyPrefix := by
  unfold copyRemainingBodyCalls copyRemainingBody
  by_cases large : toFile ∧ bodyPrefix.length > maxCaptureBytes
  · rw [if_pos large, if_pos large]
  · rw [if_neg large, if_neg large]
    by_cases empty : bodyPrefix = []
    · rw [if_pos empty, if_pos empty]
      exact copyLoopCalls_eq record toFile stream failure calls 0 0 []
    · rw [if_neg empty, if_neg empty]
      rcases writeOutput (stream.writes 0) bodyPrefix with ⟨taken, wrote⟩
      cases wrote with
      | true =>
          exact copyLoopCalls_eq record toFile stream failure calls 1 bodyPrefix.length taken
      | false => rfl

/-- **A response is received as from the connection that the calls make**: the head that the calls
give is accepted, and the body after it is copied from what is left of that connection. -/
theorem receive_eq {record : ConnectionRecord} {calls rest : List ReadCall} {bodyPrefix : Bytes}
    {fields : ResponseHead}
    (accepted : readResponseHeadCalls record calls = .ok (fields, bodyPrefix, rest)) (toFile : Bool)
    (stream : OutputStream) (failure : ℕ) :
    readResponseHead (connectionOf record calls) =
        .accepted fields bodyPrefix (connectionOf record rest).chunks ∧
      copyRemainingBodyCalls record toFile stream rest failure bodyPrefix =
        copyRemainingBody toFile stream
          ⟨(connectionOf record rest).chunks, (connectionOf record calls).ending⟩ failure
          bodyPrefix := by
  constructor
  · rw [← readResponseHeadCalls_eq, accepted]
    rfl
  · rw [copyRemainingBodyCalls_eq, ← ending_of_readHeadLoopCalls accepted]

/-! ## Interruptions -/

/-- **An interrupted `recv` is as if it had not been made**, wherever it comes. -/
theorem connectionOf_interrupted {record : ConnectionRecord} (plain : record.tls.isNone)
    (before after : List ReadCall) :
    connectionOf record (before ++ .failed .eintr :: after) =
      connectionOf record (before ++ after) := by
  induction before with
  | nil => exact if_pos ⟨plain, rfl⟩
  | cons call rest ih =>
      cases call with
      | delivered chunk => simp only [List.cons_append, connectionOf, ih]
      | ended => rfl
      | waiting => rfl
      | failed errno => simp only [List.cons_append, connectionOf, ih]

end IcuTransport.Connect
