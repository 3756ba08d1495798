import IcuTransport.Library.Ascii
import IcuTransport.Library.Search
import IcuTransport.Limits

/-!
# Reading a response head

The head of a response is the bytes of a connection through the first CRLF CRLF. This module
embeds the scanners that `native/transport.c` runs over it: the search for its end, the status
line, the copy of one header value into a bounded buffer, the count of the lines of one name,
and the reading of a declared length.

The scanners are loops over a cursor into the head. Here the cursor is the text that is left,
and a loop takes a budget of rounds; every round consumes at least one byte, so the length of
the text is always enough.
-/

set_option autoImplicit false

namespace IcuTransport.Wire

open Ascii TextScan

/-! ## The end of the head -/

/-- The head is everything through the first CRLF CRLF; the rest is body. -/
def findHeaderEnd (bytes : Bytes) : Option (Bytes × Bytes) :=
  (splitInfix (crlf ++ crlf) bytes).map fun parts => (parts.1 ++ (crlf ++ crlf), parts.2)

/-! ## The status line -/

/-- The status of the first line, which is `HTTP/1.0` or `HTTP/1.1`, a space, three digits, and
a space or a CR. -/
def parseStatus (headers : Bytes) : Option ℕ :=
  let lineLength := match splitFirst lf headers with
    | some (line, _) => line.length
    | none => headers.length
  if lineLength < 13 ∨ headers.take 7 ≠ ascii "HTTP/1." ∨
      (headers.getD 7 nul ≠ 48 ∧ headers.getD 7 nul ≠ 49) ∨ headers.getD 8 nul ≠ space then
    none
  else if lineLength - 8 < 4 then
    none
  else if isDigit (headers.getD 9 nul) = false ∨ isDigit (headers.getD 10 nul) = false ∨
      isDigit (headers.getD 11 nul) = false ∨
      (headers.getD 12 nul ≠ space ∧ headers.getD 12 nul ≠ cr) then
    none
  else
    some (digitValue (headers.getD 9 nul) * 100 + digitValue (headers.getD 10 nul) * 10 +
      digitValue (headers.getD 11 nul))

/-! ## Header lines -/

/-- A line without one CR at its end. -/
def dropTrailingCr (line : Bytes) : Bytes :=
  if line.getLast? = some cr then line.dropLast else line

/-- The loop of `copy_header_value`, from a cursor at the start of a header line. -/
def copyHeaderLoop (wanted : Bytes) (capacity : ℕ) : ℕ → Bytes → Option (CharArray capacity)
  | 0, _ => none
  | budget + 1, cursor =>
      if cursor = [] then none
      else
        let trimmed := dropTrailingCr (nextPiece lf cursor).1
        if trimmed = [] then none
        else
          match splitFirst colon trimmed with
          | some (name, value) =>
              if name.length = wanted.length ∧ startsIgnoringCase wanted trimmed then
                -- an empty value and one that does not fit end the search as well
                if trimBlanks value = [] then none
                else CharArray.store capacity (trimBlanks value)
              else copyHeaderLoop wanted capacity budget (nextPiece lf cursor).2
          | none => copyHeaderLoop wanted capacity budget (nextPiece lf cursor).2

/-- The value of the first line of a name, when it stands before any empty line and fits. -/
def copyHeaderValue (headers wanted : Bytes) (capacity : ℕ) : Option (CharArray capacity) :=
  match splitFirst lf headers with
  | none => none
  | some (_, cursor) => copyHeaderLoop wanted capacity cursor.length cursor

/-- The line has the name, a colon right after it, and its letters in any case. -/
def headerLineNamed (line name : Bytes) : Bool :=
  name.length < line.length && line.getD name.length nul = colon && startsIgnoringCase name line

/-- The loop of `header_count`, from a cursor right after an LF. -/
def headerCountLoop (name : Bytes) : ℕ → Bytes → ℕ
  | 0, _ => 0
  | budget + 1, cursor =>
      match splitFirst lf cursor with
      | none => 0
      | some (line, rest) =>
          (if headerLineNamed line name then 1 else 0) + headerCountLoop name budget rest

/-- How many LF-terminated lines after the first have the name. -/
def headerCount (headers name : Bytes) : ℕ :=
  match splitFirst lf headers with
  | none => 0
  | some (_, cursor) => headerCountLoop name cursor.length cursor

/-! ## A declared length -/

/-- The largest value of a `long long`, which is 2^63 - 1. -/
def longLongMax : ℕ := 9223372036854775807

/-- The loop of `parse_content_length`, after digits of the given value. -/
def parseLengthDigits : ℕ → Bytes → Option ℕ
  | value, [] => some value
  | value, byte :: rest =>
      if isDigit byte = false then none
      else if value > (longLongMax - digitValue byte) / 10 then none
      else parseLengthDigits (value * 10 + digitValue byte) rest

theorem parseLengthDigits_nil (value : ℕ) : parseLengthDigits value [] = some value := rfl

theorem parseLengthDigits_cons (value : ℕ) (byte : UInt8) (rest : Bytes) :
    parseLengthDigits value (byte :: rest) =
      if isDigit byte = false then none
      else if value > (longLongMax - digitValue byte) / 10 then none
      else parseLengthDigits (value * 10 + digitValue byte) rest := rfl

/-- The number a text of digits denotes, when it fits a `long long`. -/
def parseContentLength (text : Bytes) : Option ℕ :=
  if text = [] then none else parseLengthDigits 0 text

/-! ## The fields of a head -/

/-- What the program keeps of a response head. A length that was not declared, or not readable,
is `none`. -/
structure ResponseHead where
  status : ℕ
  hasLocation : Bool
  location : CharArray maxLocationBytes
  contentLength : Option ℕ
  contentType : CharArray 256
  contentEncoding : CharArray 64
  invalidFraming : Bool
  deriving DecidableEq, Repr

/-- The declared length of a head: the value of its first such line, read as a C string. -/
def declaredLength (head : Bytes) : Option ℕ :=
  (copyHeaderValue head (ascii "Content-Length") 32).bind fun value => parseContentLength value.text

/-- The framing of a body is refused when its length is declared twice or unreadably, or when a
transfer coding is applied. -/
def framingRefused (head : Bytes) : Bool :=
  headerCount head (ascii "Content-Length") > 1 ||
    (headerCount head (ascii "Content-Length") = 1 && (declaredLength head).isNone) ||
    headerCount head (ascii "Transfer-Encoding") ≠ 0

/-- The content coding of a head, `identity` when no line declares one. -/
def declaredEncoding (head : Bytes) : CharArray 64 :=
  let copied := copyHeaderValue head (ascii "Content-Encoding") 64
  let encodings := headerCount head (ascii "Content-Encoding")
  if encodings > 1 ∨ (encodings = 1 ∧ copied = none) then ⟨ascii "unsupported", by decide⟩
  else copied.getD ⟨ascii "identity", by decide⟩

/-- The fields `read_response_head` fills from a complete head, when its status is valid. -/
def parseResponseHead (head : Bytes) : Option ResponseHead :=
  match parseStatus head with
  | none => none
  | some status =>
      if status < 100 ∨ 599 < status then none
      else
        let location := copyHeaderValue head (ascii "Location") maxLocationBytes
        some
          { status := status
            hasLocation := location.isSome
            location := location.getD ⟨[], by decide⟩
            contentLength := declaredLength head
            contentType := (copyHeaderValue head (ascii "Content-Type") 256).getD ⟨[], by decide⟩
            contentEncoding := declaredEncoding head
            invalidFraming := framingRefused head }

/-- The fields of a parsed head, one by one. -/
theorem parseResponseHead_fields {head : Bytes} {fields : ResponseHead}
    (parsed : parseResponseHead head = some fields) :
    parseStatus head = some fields.status ∧ 100 ≤ fields.status ∧ fields.status ≤ 599 ∧
      fields.contentLength = declaredLength head ∧ fields.invalidFraming = framingRefused head ∧
      fields.contentType = (copyHeaderValue head (ascii "Content-Type") 256).getD ⟨[], by decide⟩ ∧
      fields.contentEncoding = declaredEncoding head := by
  unfold parseResponseHead at parsed
  cases status : parseStatus head with
  | none => simp only [status] at parsed; cases parsed
  | some number =>
      simp only [status] at parsed
      split at parsed
      · cases parsed
      · rename_i range
        have inRange : 100 ≤ number ∧ number ≤ 599 := by omega
        cases parsed
        exact ⟨rfl, inRange.1, inRange.2, rfl, rfl, rfl, rfl⟩

/-- The location of a parsed head. -/
theorem parseResponseHead_location {head : Bytes} {fields : ResponseHead}
    (parsed : parseResponseHead head = some fields) :
    fields.hasLocation = (copyHeaderValue head (ascii "Location") maxLocationBytes).isSome ∧
      fields.location =
        (copyHeaderValue head (ascii "Location") maxLocationBytes).getD ⟨[], by decide⟩ := by
  unfold parseResponseHead at parsed
  cases status : parseStatus head with
  | none => simp only [status] at parsed; cases parsed
  | some number =>
      simp only [status] at parsed
      split at parsed
      · cases parsed
      · cases parsed
        exact ⟨rfl, rfl⟩

/-- A head is parsed exactly when it has a valid status line. -/
theorem parseResponseHead_isSome_iff {head : Bytes} :
    (∃ fields, parseResponseHead head = some fields) ↔
      ∃ status, parseStatus head = some status ∧ 100 ≤ status ∧ status ≤ 599 := by
  unfold parseResponseHead
  cases parseStatus head with
  | none => simp
  | some status =>
      by_cases range : status < 100 ∨ 599 < status
      · simp only [if_pos range, Option.some.injEq]
        constructor
        · rintro ⟨fields, absurdity⟩
          cases absurdity
        · rintro ⟨_, rfl, low, high⟩
          omega
      · simp only [if_neg range, Option.some.injEq, exists_eq', true_iff]
        exact ⟨status, rfl, by omega, by omega⟩

end IcuTransport.Wire
