import IcuTransport.Wire.HeaderScan

/-!
# Reading a response from a connection

A connection delivers the bytes of a response in reads of 1 to 16384 bytes, and then either the
end of the stream or a failed read. `readResponseHead` collects reads until the head is complete
and keeps what arrived after it as a prefix of the body; `copyRemainingBody` writes that prefix
and every later read to the output.

How the bytes are cut into reads is invisible in an accepted response
(`readResponseHead_accepted`, `copyRemainingBody_of_copied`): the fields depend on the head
alone and the output is the body. It is visible in whether a response is accepted, because the
limit on the head is tested against everything read so far (`readResponseHead_accepted_iff`).
-/

set_option autoImplicit false

namespace IcuTransport.Wire

open Ascii TextScan

/-! ## Connections -/

/-- The size of the buffers the program reads into. -/
def readCapacity : ℕ := 16384

/-- What one successful read returns. -/
structure Chunk where
  bytes : Bytes
  nonempty : bytes ≠ []
  fits : bytes.length ≤ readCapacity
  deriving DecidableEq, Repr

/-- How the reads of a connection end: with the end of the stream, or with a failed read that
timed out or did not. -/
inductive Ending where
  | closed
  | failed (timedOut : Bool)
  deriving DecidableEq, Repr

/-- The reads that are left on a connection. -/
structure Connection where
  chunks : List Chunk
  ending : Ending
  deriving DecidableEq, Repr

/-- The bytes of a sequence of reads. -/
def delivered (chunks : List Chunk) : Bytes := chunks.flatMap Chunk.bytes

@[simp] theorem delivered_nil : delivered [] = [] := rfl

@[simp] theorem delivered_cons (chunk : Chunk) (rest : List Chunk) :
    delivered (chunk :: rest) = chunk.bytes ++ delivered rest := rfl

@[simp] theorem delivered_append (first second : List Chunk) :
    delivered (first ++ second) = delivered first ++ delivered second := List.flatMap_append

/-- The failure code that `read_some` leaves in a connection. -/
def readFailureCode (timedOut : Bool) : ℕ := if timedOut then 11 else 7

/-! ## The head -/

/-- Why `read_response_head` gives up. -/
inductive HeadRefusal where
  /-- "response ended before its headers" -/
  | endedBeforeHeaders
  /-- "response read failed" -/
  | readFailed (timedOut : Bool)
  /-- "response headers are too large" -/
  | headersTooLarge
  /-- "invalid HTTP status line" -/
  | invalidStatusLine
  /-- "response prefix is too large" -/
  | prefixTooLarge
  deriving DecidableEq, Repr

/-- The failure code of the connection after a refusal. -/
def HeadRefusal.code : HeadRefusal → ℕ
  | .readFailed timedOut => readFailureCode timedOut
  | _ => 13

/-- The outcome of `read_response_head`. An accepted head comes with the part of the body that
was read along with it and with the reads that are left. -/
inductive HeadRead where
  | accepted (head : ResponseHead) (bodyPrefix : Bytes) (rest : List Chunk)
  | refused (reason : HeadRefusal)
  deriving DecidableEq, Repr

/-- What happens to a complete head and the bytes read after it. -/
def finishHead (head available : Bytes) (rest : List Chunk) : HeadRead :=
  match parseResponseHead head with
  | none => .refused .invalidStatusLine
  | some fields =>
      if available.length > readCapacity then .refused .prefixTooLarge
      else .accepted fields available rest

/-- The loop of `read_response_head`, after reads that held the given bytes. -/
def readHeadLoop (ending : Ending) : List Chunk → Bytes → HeadRead
  | [], headers =>
      if headers.length < maxHeaderBytes then
        match ending with
        | .closed => .refused .endedBeforeHeaders
        | .failed timedOut => .refused (.readFailed timedOut)
      else .refused .headersTooLarge
  | chunk :: rest, headers =>
      if headers.length < maxHeaderBytes then
        if headers.length + chunk.bytes.length > maxHeaderBytes then .refused .headersTooLarge
        else
          match findHeaderEnd (headers ++ chunk.bytes) with
          | some (head, available) => finishHead head available rest
          | none => readHeadLoop ending rest (headers ++ chunk.bytes)
      else .refused .headersTooLarge

/-- Read until the head of the response is complete. -/
def readResponseHead (connection : Connection) : HeadRead :=
  readHeadLoop connection.ending connection.chunks []

/-! ## The body -/

/-- What happens to one write: it takes everything, or at most so many bytes. -/
inductive WriteOutcome where
  | complete
  | short (count : ℕ)
  deriving DecidableEq, Repr

/-- How the output stream behaves: each of its writes, and its flush. -/
structure OutputStream where
  writes : ℕ → WriteOutcome
  flushes : Bool

/-- The bytes a write leaves in the stream, and whether it took them all. -/
def writeOutput (outcome : WriteOutcome) (bytes : Bytes) : Bytes × Bool :=
  match outcome with
  | .complete => (bytes, true)
  | .short count => (bytes.take count, bytes.length ≤ count)

/-- The outcome of `copy_remaining_body`: whether it succeeded, the failure code of the connection
after it, the received length and what is in the output. -/
structure Copy where
  copied : Bool
  failureCode : ℕ
  received : ℕ
  written : Bytes
  deriving DecidableEq, Repr

/-- The room left in a capture, in the arithmetic of `size_t`. -/
def captureRoom (received : ℕ) : ℕ := (maxCaptureBytes + 2 ^ 64 - received) % 2 ^ 64

/-- The loop of `copy_remaining_body`, after so many writes. A failed write leaves the failure
code of the connection as it was. -/
def copyLoop (toFile : Bool) (stream : OutputStream) (ending : Ending) (failure : ℕ) :
    List Chunk → ℕ → ℕ → Bytes → Copy
  | [], _, received, written =>
      match ending with
      | .closed => ⟨stream.flushes, failure, received, written⟩
      | .failed timedOut => ⟨false, readFailureCode timedOut, received, written⟩
  | chunk :: rest, writes, received, written =>
      if toFile ∧ chunk.bytes.length > captureRoom received then
        ⟨false, 12, received, written⟩
      else
        match writeOutput (stream.writes writes) chunk.bytes with
        | (taken, true) =>
            copyLoop toFile stream ending failure rest (writes + 1)
              (received + chunk.bytes.length) (written ++ taken)
        | (taken, false) => ⟨false, failure, received, written ++ taken⟩

/-- Write the prefix and everything that is still to be read. -/
def copyRemainingBody (toFile : Bool) (stream : OutputStream) (connection : Connection)
    (failure : ℕ) (bodyPrefix : Bytes) : Copy :=
  if toFile ∧ bodyPrefix.length > maxCaptureBytes then ⟨false, 12, 0, []⟩
  else if bodyPrefix = [] then
    copyLoop toFile stream connection.ending failure connection.chunks 0 0 []
  else
    match writeOutput (stream.writes 0) bodyPrefix with
    | (taken, true) =>
        copyLoop toFile stream connection.ending failure connection.chunks 1 bodyPrefix.length taken
    | (taken, false) => ⟨false, failure, 0, taken⟩

/-! ## Where the head ends -/

/-- A text that ends with its first CRLF CRLF. -/
def IsHead (head : Bytes) : Prop :=
  crlf ++ crlf <:+ head ∧ ¬ crlf ++ crlf <:+: head.dropLast

instance (head : Bytes) : Decidable (IsHead head) :=
  inferInstanceAs (Decidable (crlf ++ crlf <:+ head ∧ ¬ crlf ++ crlf <:+: head.dropLast))

theorem IsHead.length_pos {head : Bytes} (isHead : IsHead head) : 0 < head.length :=
  lt_of_lt_of_le (by decide : 0 < (crlf ++ crlf).length) isHead.1.length_le

theorem crlfcrlf_ne_nil : crlf ++ crlf ≠ [] := by decide

theorem isHead_append_iff {before : Bytes} :
    IsHead (before ++ (crlf ++ crlf)) ↔ FirstAfter (crlf ++ crlf) before := by
  have last : (before ++ (crlf ++ crlf)).dropLast = before ++ (crlf ++ crlf).dropLast :=
    List.dropLast_append_of_ne_nil crlfcrlf_ne_nil
  rw [IsHead, last]
  exact ⟨fun holds => holds.2, fun first => ⟨List.suffix_append _ _, first⟩⟩

/-- **The search for the end of the head**: it cuts a text after a head, and only there. -/
theorem findHeaderEnd_eq_some_iff {text head body : Bytes} :
    findHeaderEnd text = some (head, body) ↔ text = head ++ body ∧ IsHead head := by
  simp only [findHeaderEnd, Option.map_eq_some_iff, Prod.mk.injEq]
  constructor
  · rintro ⟨⟨before, after⟩, found, rfl, rfl⟩
    obtain ⟨rfl, first⟩ := splitInfix_eq_some crlfcrlf_ne_nil found
    exact ⟨rfl, isHead_append_iff.mpr first⟩
  · rintro ⟨rfl, isHead⟩
    obtain ⟨before, rfl⟩ := isHead.1
    exact ⟨(before, body), splitInfix_append (isHead_append_iff.mp isHead) body, rfl, rfl⟩

theorem findHeaderEnd_eq_none_iff {text : Bytes} :
    findHeaderEnd text = none ↔ ¬ crlf ++ crlf <:+: text := by
  rw [findHeaderEnd, Option.map_eq_none_iff, splitInfix_eq_none_iff crlfcrlf_ne_nil]

/-- A head found only after more bytes arrived is longer than what was there before. -/
theorem length_lt_of_findHeaderEnd {text more head body : Bytes}
    (pending : findHeaderEnd text = none)
    (found : findHeaderEnd (text ++ more) = some (head, body)) : text.length < head.length := by
  obtain ⟨split, isHead⟩ := findHeaderEnd_eq_some_iff.mp found
  by_contra short
  have within : head <+: text :=
    List.prefix_of_prefix_length_le ⟨body, split.symm⟩ (List.prefix_append text more) (by omega)
  exact findHeaderEnd_eq_none_iff.mp pending (isHead.1.isInfix.trans within.isInfix)

/-- The head of a text that starts with a head is that head. -/
theorem findHeaderEnd_append {head : Bytes} (isHead : IsHead head) (body : Bytes) :
    findHeaderEnd (head ++ body) = some (head, body) :=
  findHeaderEnd_eq_some_iff.mpr ⟨rfl, isHead⟩

/-- Nothing shorter than the head contains its end. -/
theorem findHeaderEnd_take {head body : Bytes} (isHead : IsHead head) {text : Bytes}
    (within : text <+: head ++ body) (short : text.length < head.length) :
    findHeaderEnd text = none := by
  rw [findHeaderEnd_eq_none_iff]
  intro occurs
  have prefixHead : text <+: head.dropLast := by
    refine List.prefix_of_prefix_length_le within ?_ ?_
    · exact (List.dropLast_prefix head).trans (List.prefix_append head body)
    · rw [List.length_dropLast]
      omega
  exact isHead.2 (occurs.trans prefixHead.isInfix)

end IcuTransport.Wire
