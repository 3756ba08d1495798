import IcuTransport.Capture.Utf8
import IcuTransport.Wire.HeaderScan

/-!
# The metadata of a capture

Beside the body a capture leaves a text of six rows, each a key, a tab and a value. The rows of
the content type and of the content coding show what the head of the response holds, byte for
byte.
-/

set_option autoImplicit false

namespace IcuTransport.Capture

open Ascii TextScan Wire

/-! ## The text -/

/-- The C string an array holds, or another text in the place of the empty one. -/
def shownOr {capacity : ℕ} (instead : Bytes) (array : CharArray capacity) : Bytes :=
  if array.text = [] then instead else array.text

/-- The content type that is shown of a head. -/
def shownType (head : ResponseHead) : Bytes := shownOr (ascii "unknown") head.contentType

/-- The content coding that is shown of a head. -/
def shownEncoding (head : ResponseHead) : Bytes := shownOr (ascii "identity") head.contentEncoding

/-- The numeral of a declared length; it is negative when there is none. -/
def shownLength : Option ℕ → Bytes
  | some length => decimal length
  | none => ascii "-1"

/-- A key, a tab and a value. -/
def row (key value : Bytes) : Bytes := key ++ tab :: value

/-- The rows of the metadata. -/
def metadataRows (head : ResponseHead) (receivedLength : ℕ) (utf8 : Bool) : List Bytes :=
  [row (ascii "http_status") (decimal head.status),
    row (ascii "content_type") (shownType head),
    row (ascii "content_encoding") (shownEncoding head),
    row (ascii "declared_length") (shownLength head.contentLength),
    row (ascii "received_length") (decimal receivedLength),
    row (ascii "utf8") (if utf8 then ascii "valid" else ascii "invalid")]

/-- The text of the metadata. -/
def metadataText (head : ResponseHead) (receivedLength : ℕ) (utf8 : Bool) : Bytes :=
  joinLines [lf] (metadataRows head receivedLength utf8)

/-! ## The files -/

/-- The verdict on a body file; there is none when nothing can be read from it. -/
def validUtf8File (contents : Option Bytes) : Option Bool := contents.map validUtf8Bytes

/-- How the metadata file behaves: whether it opens, is printed to and closes. -/
structure MetadataFile where
  opens : Bool
  prints : Bool
  closes : Bool
  deriving DecidableEq, Repr

/-- Write the metadata when a path is given for them: whether that succeeded, and the text handed
to the file. -/
def writeResponseMetadata (path : Option Bytes) (file : MetadataFile) (head : ResponseHead)
    (receivedLength : ℕ) (bodyFile : Option Bytes) : Bool × Option Bytes :=
  match path with
  | none => (true, none)
  | some _ =>
      if file.opens then
        (file.prints && file.closes,
          some (metadataText head receivedLength (validUtf8File bodyFile = some true)))
      else (false, none)

/-- What was handed to the file is the text of the metadata, with the verdict on the body file. -/
theorem writeResponseMetadata_eq {path metadata : Bytes} {file : MetadataFile} {head : ResponseHead}
    {received : ℕ} {bodyFile : Option Bytes} {written : Bool}
    (wrote : writeResponseMetadata (some path) file head received bodyFile =
      (written, some metadata)) :
    written = (file.prints && file.closes) ∧
      metadata = metadataText head received (validUtf8File bodyFile = some true) := by
  unfold writeResponseMetadata at wrote
  dsimp only at wrote
  split at wrote
  · obtain ⟨rfl, same⟩ := Prod.mk.inj wrote
    exact ⟨rfl, (Option.some.inj same).symm⟩
  · cases wrote

end IcuTransport.Capture
