import IcuTransport.Capture.Understanding

/-!
# The round trip of the metadata

What the program writes about a capture is read back by the client, in another language and with
another idea of a line. The format has no escapes: a tab ends a key and a line end ends a row. A
content type or a content coding that holds neither comes back as it was, with the status and the
verdict on the body; any other one does not (`metadata_round_trip_iff`).
-/

set_option autoImplicit false

namespace IcuTransport.Capture

open Ascii TextScan Wire

/-- The metadata tell the client what the head and the body are, for every result that says that a
response was captured. -/
def RoundTrips (fields : ResponseHead) (metadata body : Bytes) : Prop :=
  ∀ code, code = 0 ∨ code = 10 → understandBytes code metadata body =
    .ok ⟨fields.status, body, shownEncoding fields, shownType fields, validUtf8Bytes body⟩

section Text

variable {fields : ResponseHead} {received : ℕ} {utf8 : Bool} {body : Bytes}

/-- The fields of unbroken values are looked up as they were written. -/
theorem understandBytes_of_unbroken (typeUnbroken : Unbroken (shownType fields))
    (encodingUnbroken : Unbroken (shownEncoding fields)) (typeLine : lf ∉ shownType fields)
    (encodingLine : lf ∉ shownEncoding fields) (low : 100 ≤ fields.status)
    (high : fields.status ≤ 599) {code : ℤ} (captured : code = 0 ∨ code = 10) :
    understandBytes code (metadataText fields received utf8) body =
      .ok ⟨fields.status, body, shownEncoding fields, shownType fields, utf8⟩ := by
  have same : metadataFields (metadataText fields received utf8) = _ :=
    metadataFields_metadataText typeLine encodingLine
  rw [fieldsOfRow_unbroken (by decide) typeUnbroken,
    fieldsOfRow_unbroken (by decide) encodingUnbroken] at same
  have status : (metadataFields (metadataText fields received utf8)).lookup (ascii "http_status") =
      some (decimal fields.status) := by rw [same]; rfl
  have verdict : (metadataFields (metadataText fields received utf8)).lookup (ascii "utf8") =
      some (if utf8 then ascii "valid" else ascii "invalid") := by rw [same]; rfl
  have encoding : (metadataFields (metadataText fields received utf8)).lookup
      (ascii "content_encoding") = some (shownEncoding fields) := by rw [same]; rfl
  have type : (metadataFields (metadataText fields received utf8)).lookup (ascii "content_type") =
      some (shownType fields) := by rw [same]; rfl
  have truth :
      decide ((if utf8 then ascii "valid" else ascii "invalid") = ascii "valid") = utf8 := by
    cases utf8 with
    | true => rfl
    | false => decide
  rw [understandBytes, if_neg (not_not_intro captured)]
  simp only [status, verdict, encoding, type, statusOf_decimal low high, truth]

/-- What came back whole was unbroken. -/
theorem unbroken_of_understandBytes (typeLine : lf ∉ shownType fields)
    (encodingLine : lf ∉ shownEncoding fields) {code : ℤ} {response : HTTPBytesResponse}
    (understood : understandBytes code (metadataText fields received utf8) body = .ok response) :
    Unbroken response.contentType ∧ Unbroken response.encoding := by
  obtain ⟨_, _, _, encoding, type⟩ := understandBytes_ok understood
  exact ⟨unbroken_of_lookup typeLine encodingLine type,
    unbroken_of_lookup typeLine encodingLine encoding⟩

end Text

theorem validUtf8File_some (body : Bytes) :
    decide (validUtf8File (some body) = some true) = validUtf8Bytes body := by
  rw [validUtf8File, Option.map_some]
  simp only [Option.some.injEq, Bool.decide_eq_true]

/-- **When the metadata of a capture round-trip.** Take a head that was accepted, a body, and the
metadata written for both. The client finds the status, the content type, the content coding and the
verdict on the body in them exactly when neither the content type nor the content coding that is
shown holds a tab or a CR. -/
theorem metadata_round_trip_iff (connection : Connection) (fields : ResponseHead)
    (bodyPrefix : Bytes) (rest : List Chunk) (body metadata path : Bytes) (file : MetadataFile)
    (accepted : readResponseHead connection = .accepted fields bodyPrefix rest)
    (written : writeResponseMetadata (some path) file fields body.length (some body) =
      (true, some metadata)) :
    RoundTrips fields metadata body ↔
      Unbroken (shownType fields) ∧ Unbroken (shownEncoding fields) := by
  obtain ⟨used, head, _, _, isHead, parsed, _⟩ := readHeadLoop_accepted accepted
  obtain ⟨typeLine, encodingLine, low, high⟩ := shown_of_parseResponseHead isHead parsed
  rw [(writeResponseMetadata_eq written).2, validUtf8File_some]
  constructor
  · intro roundTrips
    exact unbroken_of_understandBytes typeLine encodingLine (roundTrips 0 (Or.inl rfl))
  · rintro ⟨typeUnbroken, encodingUnbroken⟩ code captured
    exact understandBytes_of_unbroken typeUnbroken encodingUnbroken typeLine encodingLine low high
      captured

/-- A response whose content type holds a tab before its parameter. -/
def tabbedResponse : Connection :=
  ⟨[⟨ascii "HTTP/1.0 200 OK\r\nContent-Type: text/html;\tcharset=utf-8\r\n\r\nhi", by decide,
    by decide⟩], .closed⟩

/-- The metadata of that response. -/
def tabbedMetadata : Bytes :=
  ascii "http_status\t200\ncontent_type\ttext/html;\tcharset=utf-8\n" ++
    ascii "content_encoding\tidentity\ndeclared_length\t-1\nreceived_length\t2\nutf8\tvalid\n"

theorem tabbedResponse_malformed :
    ∃ fields bodyPrefix rest,
      readResponseHead tabbedResponse = .accepted fields bodyPrefix rest ∧
        writeResponseMetadata (some (ascii "m")) ⟨true, true, true⟩ fields 2 (some (ascii "hi")) =
          (true, some tabbedMetadata) ∧
        understandBytes 0 tabbedMetadata (ascii "hi") = .error .malformedResponse ∧
        ¬ RoundTrips fields tabbedMetadata (ascii "hi") := by
  have refused : understandBytes 0 tabbedMetadata (ascii "hi") = .error .malformedResponse := by
    decide +kernel
  refine ⟨_, _, _, rfl, by decide +kernel, refused, fun roundTrips => ?_⟩
  cases refused.symm.trans (roundTrips 0 (Or.inl rfl))

theorem metadata_round_trip_iff_plain :
    understandBytes 10 plainMetadata (ascii "hi") =
      .ok ⟨200, ascii "hi", ascii "identity", ascii "text/html", true⟩ :=
  (metadata_round_trip_iff plainResponse plainFields [] [] (ascii "hi") plainMetadata (ascii "m")
    ⟨true, true, true⟩ plainResponse_accepted plainMetadata_written).mpr ⟨by decide, by decide⟩ 10
    (Or.inr rfl)

end IcuTransport.Capture
