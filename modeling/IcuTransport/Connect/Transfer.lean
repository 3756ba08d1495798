import IcuTransport.Connect.Holding
import IcuTransport.Wire.Reading

/-!
# Bytes over a connection

`writeAll` embeds the loop that sends a text, in pieces of at most 16384 bytes over TLS, with any
schedule of partial and repeated writes. The two readers of a response, of its head and of the rest
of its body, appear here once more with the events they cause. Without the events they are the
readers of `Wire.Reading` (`value_readResponseHeadTraced`, `value_copyRemainingBodyTraced`), and
what the events write is what the copy says it wrote (`custody_copyRemainingBodyTraced`).
-/

set_option autoImplicit false

namespace IcuTransport.Connect

open Ascii TextScan Tracing Wire

/-! ## Writing -/

/-- The outcome of one write: it takes one byte and so many more, as far as they are offered, it is
to be repeated, or it fails. -/
inductive WriteCall where
  | accepted (more : ℕ)
  | retried
  | failed
  deriving DecidableEq, Repr

/-- The bytes that are offered to one write. -/
def offered (record : ConnectionRecord) (bytes : Bytes) : Bytes :=
  if record.tls.isSome then bytes.take 16384 else bytes

/-- Write all bytes; whether that succeeded. A schedule that is used up fails. -/
def writeAll (record : ConnectionRecord) : List WriteCall → Bytes → Traced Event Bool
  | _, [] => pure true
  | [], _ :: _ => pure false
  | .failed :: _, _ :: _ => do
      Traced.emit (.used record.way)
      pure false
  | .retried :: calls, byte :: bytes => do
      Traced.emit (.used record.way)
      writeAll record calls (byte :: bytes)
  | .accepted more :: calls, byte :: bytes => do
      let taken := (offered record (byte :: bytes)).take (more + 1)
      Traced.emit (.sent record.way taken)
      writeAll record calls ((byte :: bytes).drop taken.length)

/-- Write the head and the body of a request. -/
def writeRequest (record : ConnectionRecord) (headWrites bodyWrites : List WriteCall)
    (head body : Bytes) : Traced Event Bool := do
  let headWritten ← writeAll record headWrites head
  if headWritten = false then pure false
  else if body = [] then pure true
  else writeAll record bodyWrites body

/-! ## Reading -/

/-- The loop of `read_response_head`, with its events. -/
def readHeadLoopTraced (way : List Handle) (ending : Ending) :
    List Chunk → Bytes → Traced Event HeadRead
  | [], headers =>
      if headers.length < maxHeaderBytes then do
        Traced.emit (.used way)
        match ending with
        | .closed => pure (.refused .endedBeforeHeaders)
        | .failed timedOut => pure (.refused (.readFailed timedOut))
      else pure (.refused .headersTooLarge)
  | chunk :: rest, headers =>
      if headers.length < maxHeaderBytes then do
        Traced.emit (.received way chunk.bytes)
        if headers.length + chunk.bytes.length > maxHeaderBytes then
          pure (.refused .headersTooLarge)
        else
          match findHeaderEnd (headers ++ chunk.bytes) with
          | some (head, available) => pure (finishHead head available rest)
          | none => readHeadLoopTraced way ending rest (headers ++ chunk.bytes)
      else pure (.refused .headersTooLarge)

/-- Read until the head of the response is complete. -/
def readResponseHeadTraced (way : List Handle) (connection : Connection) : Traced Event HeadRead :=
  readHeadLoopTraced way connection.ending connection.chunks []

/-- The loop of `copy_remaining_body`, with its events. -/
def copyLoopTraced (way : List Handle) (toFile : Bool) (stream : OutputStream) (ending : Ending)
    (failure : ℕ) : List Chunk → ℕ → ℕ → Bytes → Traced Event Copy
  | [], _, received, written => do
      Traced.emit (.used way)
      match ending with
      | .closed => pure ⟨stream.flushes, failure, received, written⟩
      | .failed timedOut => pure ⟨false, readFailureCode timedOut, received, written⟩
  | chunk :: rest, writes, received, written => do
      Traced.emit (.received way chunk.bytes)
      if toFile ∧ chunk.bytes.length > captureRoom received then
        pure ⟨false, 12, received, written⟩
      else do
        let taken := (writeOutput (stream.writes writes) chunk.bytes).1
        Traced.emit (.wrote taken)
        if (writeOutput (stream.writes writes) chunk.bytes).2 = false then
          pure ⟨false, failure, received, written ++ taken⟩
        else
          copyLoopTraced way toFile stream ending failure rest (writes + 1)
            (received + chunk.bytes.length) (written ++ taken)

/-- Write the prefix and everything that is still to be read. -/
def copyRemainingBodyTraced (way : List Handle) (toFile : Bool) (stream : OutputStream)
    (connection : Connection) (failure : ℕ) (bodyPrefix : Bytes) : Traced Event Copy :=
  if toFile ∧ bodyPrefix.length > maxCaptureBytes then pure ⟨false, 12, 0, []⟩
  else if bodyPrefix = [] then
    copyLoopTraced way toFile stream connection.ending failure connection.chunks 0 0 []
  else do
    let taken := (writeOutput (stream.writes 0) bodyPrefix).1
    Traced.emit (.wrote taken)
    if (writeOutput (stream.writes 0) bodyPrefix).2 = false then pure ⟨false, failure, 0, taken⟩
    else
      copyLoopTraced way toFile stream connection.ending failure connection.chunks 1
        bodyPrefix.length taken

/-! ## Without the events -/

theorem value_readHeadLoopTraced (way : List Handle) (ending : Ending) (chunks : List Chunk)
    (headers : Bytes) :
    (readHeadLoopTraced way ending chunks headers).value = readHeadLoop ending chunks headers := by
  induction chunks generalizing headers with
  | nil =>
      unfold readHeadLoopTraced readHeadLoop
      split
      · cases ending with
        | closed => rfl
        | failed timedOut => rfl
      · rfl
  | cons chunk rest ih =>
      unfold readHeadLoopTraced readHeadLoop
      split
      · rw [Traced.value_bind]
        split
        · rfl
        · cases findHeaderEnd (headers ++ chunk.bytes) with
          | some found => rfl
          | none => exact ih _
      · rfl

/-- **The traced reader of a head is the reader of a head.** -/
theorem value_readResponseHeadTraced (way : List Handle) (connection : Connection) :
    (readResponseHeadTraced way connection).value = readResponseHead connection :=
  value_readHeadLoopTraced way connection.ending connection.chunks []

theorem value_copyLoopTraced (way : List Handle) (toFile : Bool) (stream : OutputStream)
    (ending : Ending) (failure : ℕ) (chunks : List Chunk) (writes received : ℕ) (written : Bytes) :
    (copyLoopTraced way toFile stream ending failure chunks writes received written).value =
      copyLoop toFile stream ending failure chunks writes received written := by
  induction chunks generalizing writes received written with
  | nil =>
      cases ending with
      | closed => rfl
      | failed timedOut => rfl
  | cons chunk rest ih =>
      unfold copyLoopTraced copyLoop
      rw [Traced.value_bind]
      split
      · rfl
      · rw [Traced.value_bind]
        cases writeOutput (stream.writes writes) chunk.bytes with
        | mk taken complete =>
            cases complete with
            | false => rfl
            | true => exact ih _ _ _

/-- **The traced copy of a body is the copy of a body.** -/
theorem value_copyRemainingBodyTraced (way : List Handle) (toFile : Bool) (stream : OutputStream)
    (connection : Connection) (failure : ℕ) (bodyPrefix : Bytes) :
    (copyRemainingBodyTraced way toFile stream connection failure bodyPrefix).value =
      copyRemainingBody toFile stream connection failure bodyPrefix := by
  unfold copyRemainingBodyTraced copyRemainingBody
  split
  · rfl
  · split
    · exact value_copyLoopTraced _ _ _ _ _ _ _ _ _
    · rw [Traced.value_bind]
      cases writeOutput (stream.writes 0) bodyPrefix with
      | mk taken complete =>
          cases complete with
          | false => rfl
          | true => exact value_copyLoopTraced _ _ _ _ _ _ _ _ _

/-! ## Which handles are held, and what is put out -/

section Accounts

variable {held : List Handle} {output : Output}

theorem custody_writeAll {record : ConnectionRecord} (within : record.way ⊆ held)
    (calls : List WriteCall) (bytes : Bytes) :
    Guarded account (held, output) (writeAll record calls bytes) fun _ => (held, output) := by
  induction calls generalizing bytes with
  | nil =>
      cases bytes with
      | nil => exact Guarded.pure rfl
      | cons byte bytes => exact Guarded.pure rfl
  | cons call calls ih =>
      cases bytes with
      | nil =>
          unfold writeAll
          exact Guarded.pure rfl
      | cons byte bytes =>
          cases call with
          | accepted more => exact Guarded.emit_bind (account_sent within) (ih _)
          | retried => exact Guarded.emit_bind (account_used within) (ih _)
          | failed => exact Guarded.emit_bind (account_used within) (Guarded.pure rfl)

theorem custody_writeRequest {record : ConnectionRecord} (within : record.way ⊆ held)
    (headWrites bodyWrites : List WriteCall) (head body : Bytes) :
    Guarded account (held, output) (writeRequest record headWrites bodyWrites head body)
      fun _ => (held, output) := by
  unfold writeRequest
  refine Guarded.bind (custody_writeAll within _ _) ?_
  split
  · exact Guarded.pure rfl
  · split
    · exact Guarded.pure rfl
    · exact custody_writeAll within _ _

theorem custody_readHeadLoopTraced {way : List Handle} (within : way ⊆ held) (ending : Ending)
    (chunks : List Chunk) (headers : Bytes) :
    Guarded account (held, output) (readHeadLoopTraced way ending chunks headers)
      fun _ => (held, output) := by
  induction chunks generalizing headers with
  | nil =>
      unfold readHeadLoopTraced
      split
      · refine Guarded.emit_bind (account_used within) ?_
        cases ending with
        | closed => exact Guarded.pure rfl
        | failed timedOut => exact Guarded.pure rfl
      · exact Guarded.pure rfl
  | cons chunk rest ih =>
      unfold readHeadLoopTraced
      split
      · refine Guarded.emit_bind (account_received within) ?_
        split
        · exact Guarded.pure rfl
        · split
          · exact Guarded.pure rfl
          · exact ih _
      · exact Guarded.pure rfl

theorem custody_readResponseHeadTraced {way : List Handle} (within : way ⊆ held)
    (connection : Connection) :
    Guarded account (held, output) (readResponseHeadTraced way connection)
      fun _ => (held, output) :=
  custody_readHeadLoopTraced within connection.ending connection.chunks []

theorem account_wrote {files : List CaptureFile} {written bytes : Bytes} :
    account (held, ⟨files, written⟩) (.wrote bytes) = some (held, ⟨files, written ++ bytes⟩) := rfl

theorem custody_copyLoopTraced {way : List Handle} (within : way ⊆ held) {files : List CaptureFile}
    (toFile : Bool) (stream : OutputStream) (ending : Ending) (failure : ℕ) (chunks : List Chunk)
    (writes received : ℕ) (written : Bytes) :
    Guarded account (held, ⟨files, written⟩)
      (copyLoopTraced way toFile stream ending failure chunks writes received written)
      fun copy => (held, ⟨files, copy.written⟩) := by
  induction chunks generalizing writes received written with
  | nil =>
      refine Guarded.emit_bind (account_used within) ?_
      cases ending with
      | closed => exact Guarded.pure rfl
      | failed timedOut => exact Guarded.pure rfl
  | cons chunk rest ih =>
      unfold copyLoopTraced
      refine Guarded.emit_bind (account_received within) ?_
      split
      · exact Guarded.pure rfl
      · refine Guarded.emit_bind account_wrote ?_
        split
        · exact Guarded.pure rfl
        · exact ih _ _ _

/-- **What a copy puts out is what it says it wrote.** -/
theorem custody_copyRemainingBodyTraced {way : List Handle} (within : way ⊆ held)
    {files : List CaptureFile} (toFile : Bool) (stream : OutputStream) (connection : Connection)
    (failure : ℕ) (bodyPrefix : Bytes) :
    Guarded account (held, ⟨files, []⟩)
      (copyRemainingBodyTraced way toFile stream connection failure bodyPrefix)
      fun copy => (held, ⟨files, copy.written⟩) := by
  unfold copyRemainingBodyTraced
  split
  · exact Guarded.pure rfl
  · split
    · exact custody_copyLoopTraced within _ _ _ _ _ _ _ _
    · refine Guarded.emit_bind account_wrote ?_
      split
      · exact Guarded.pure rfl
      · exact custody_copyLoopTraced within _ _ _ _ _ _ _ _

end Accounts

end IcuTransport.Connect
