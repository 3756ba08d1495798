import IcuTransport.Capture.Charset
import IcuTransport.Capture.RoundTrip
import IcuTransport.Wire.Values

/-!
# A declared content type

The content type of a response travels from its header line into an array of 256 bytes, from there
into the metadata, and from the metadata to the check of the charset. A value that does not fit the
array is left out, and the metadata say `unknown`, which has no charset to refuse; a content coding
that does not fit is marked as unsupported instead. A value that holds a CR is cut at it when the
metadata are read.

A declared type is not lost, in every response that is built, exactly when it fits and the rows of
the metadata keep each charset that it declares (`declared_type_reaches_iff`).
-/

set_option autoImplicit false

namespace IcuTransport.Capture

open Ascii TextScan Wire

/-! ## The declared value -/

/-- The first line of a content type stands before any empty line, and its value is not empty and
has no NUL. -/
def DeclaresType (head value : Bytes) : Prop :=
  ∃ before line after, headerLines head = before ++ line :: after ∧
    Named (ascii "Content-Type") line ∧
    (∀ earlier ∈ before,
      dropTrailingCr earlier ≠ [] ∧ ¬ Named (ascii "Content-Type") earlier) ∧
    lineValue line = value ∧ value ≠ [] ∧ nul ∉ value

section Declared

variable {head value : Bytes} {fields : ResponseHead}

theorem DeclaresType.copyHeaderValue (declares : DeclaresType head value) (isHead : IsHead head)
    (capacity : ℕ) :
    Wire.copyHeaderValue head (ascii "Content-Type") capacity = CharArray.store capacity value := by
  obtain ⟨before, line, after, split, named, earlier, equal, filled, _⟩ := declares
  have first : firstValue (ascii "Content-Type") (headerLines head) = some value :=
    firstValue_eq_some_iff.mpr
      ⟨before, line, after, split, named, equal, named.dropTrailingCr_ne_nil, earlier⟩
  rw [copyHeaderValue_eq isHead.terminated, first, Option.bind_some, storeValue, if_neg filled]

/-- A value that fits is shown as it is. -/
theorem DeclaresType.shownType_of_fits (declares : DeclaresType head value) (isHead : IsHead head)
    (parsed : parseResponseHead head = some fields) (fits : value.length < 256) :
    shownType fields = value := by
  obtain ⟨_, _, _, _, _, type, _⟩ := parseResponseHead_fields parsed
  have stored : CharArray.store 256 value = some ⟨value, fits⟩ :=
    CharArray.store_eq_some_iff.mpr rfl
  obtain ⟨_, _, _, _, _, _, _, filled, noNul⟩ := id declares
  have text : (⟨value, fits⟩ : CharArray 256).text = value := cString_eq_self_iff.mpr noNul
  rw [shownType, type, declares.copyHeaderValue isHead, stored, Option.getD_some, shownOr, text,
    if_neg filled]

/-- A value that does not fit is not shown. -/
theorem DeclaresType.shownType_of_long (declares : DeclaresType head value) (isHead : IsHead head)
    (parsed : parseResponseHead head = some fields) (long : ¬ value.length < 256) :
    shownType fields = ascii "unknown" := by
  obtain ⟨_, _, _, _, _, type, _⟩ := parseResponseHead_fields parsed
  rw [shownType, type, declares.copyHeaderValue isHead, CharArray.store, dif_neg long,
    Option.getD_none]
  rfl

end Declared

/-! ## The lines of the metadata -/

/-- The lines that the rows of the two values make for the reader of the metadata. -/
def rowLines (value encoding : Bytes) : List Bytes :=
  (row (ascii "content_type") value).splitOn cr ++
    (row (ascii "content_encoding") encoding).splitOn cr

/-- The first line that has the key, a tab and no other tab gives the value. -/
def FirstField (key : Bytes) (pieces : List Bytes) (value : Bytes) : Prop :=
  ∃ before after, pieces = before ++ row key value :: after ∧ tab ∉ value ∧
    ∀ earlier ∈ before, ∀ other, earlier = row key other → tab ∈ other

/-- Either the first line is the field, or it is no field of the key and a later line is. -/
theorem firstField_cons_iff {key line value : Bytes} {pieces : List Bytes} :
    FirstField key (line :: pieces) value ↔
      (line = row key value ∧ tab ∉ value) ∨
        ((∀ other, line = row key other → tab ∈ other) ∧ FirstField key pieces value) := by
  constructor
  · rintro ⟨before, after, split, noTab, none⟩
    cases before with
    | nil =>
        obtain ⟨rfl, _⟩ := List.cons.inj split
        exact Or.inl ⟨rfl, noTab⟩
    | cons first before =>
        obtain ⟨rfl, rfl⟩ := List.cons.inj split
        exact Or.inr ⟨none line List.mem_cons_self, before, after, rfl, noTab,
          fun earlier member => none earlier (List.mem_cons_of_mem line member)⟩
  · rintro (⟨rfl, noTab⟩ | ⟨notFirst, before, after, rfl, noTab, none⟩)
    · exact ⟨[], pieces, rfl, noTab, fun _ member => absurd member List.not_mem_nil⟩
    · exact ⟨line :: before, after, rfl, noTab, List.forall_mem_cons.mpr ⟨notFirst, none⟩⟩

/-- The field that is looked up is the first one of its key. -/
theorem lookup_fields_eq_some_iff {key value : Bytes} (noTab : tab ∉ key) {pieces : List Bytes} :
    (pieces.filterMap fieldOf).lookup key = some value ↔ FirstField key pieces value := by
  induction pieces with
  | nil =>
      constructor
      · intro found
        cases found
      · rintro ⟨before, after, split, _⟩
        exact absurd split.symm (by simp)
  | cons line pieces ih =>
      rw [firstField_cons_iff, ← ih]
      cases field : fieldOf line with
      | none =>
          have notField : ∀ other, line = row key other → tab ∈ other := by
            intro other same
            by_contra noTab'
            cases field.symm.trans (fieldOf_eq_some_iff.mpr ⟨same, noTab, noTab'⟩)
          rw [List.filterMap_cons_none field, and_iff_right notField]
          refine ⟨Or.inr, fun either => either.resolve_left fun own => ?_⟩
          exact own.2 (notField value own.1)
      | some found =>
          obtain ⟨other, text⟩ := found
          obtain ⟨rfl, noTab', noTab''⟩ := fieldOf_eq_some_iff.mp field
          have sameKey : ∀ {key' text' : Bytes}, tab ∉ key' → row other text = row key' text' →
              other = key' ∧ text = text' := by
            intro key' text' noTab₀ same
            have cut := splitFirst_append_cons noTab' text
            rw [← row, same, row, splitFirst_append_cons noTab₀] at cut
            obtain ⟨rfl, rfl⟩ := Prod.mk.inj (Option.some.inj cut)
            exact ⟨rfl, rfl⟩
          rw [List.filterMap_cons_some field, List.lookup_cons]
          by_cases same : key = other
          · subst same
            rw [beq_self_eq_true]
            constructor
            · intro here
              obtain rfl := Option.some.inj here
              exact Or.inl ⟨rfl, noTab''⟩
            · rintro (⟨own, _⟩ | ⟨notFirst, _⟩)
              · exact congrArg some (sameKey noTab own).2
              · exact absurd (notFirst text rfl) noTab''
          · rw [beq_eq_false_iff_ne.mpr same]
            constructor
            · intro later
              exact Or.inr ⟨fun _ own => absurd (sameKey noTab own).1.symm same, later⟩
            · rintro (⟨own, _⟩ | ⟨_, later⟩)
              · exact absurd (sameKey noTab own).1.symm same
              · exact later

theorem firstField_type_of_unbroken {value : Bytes} (unbroken : Unbroken value) (encoding : Bytes) :
    FirstField (ascii "content_type") (rowLines value encoding) value := by
  rw [← lookup_fields_eq_some_iff (by decide), rowLines, List.filterMap_append]
  change (fieldsOfRow (row (ascii "content_type") value) ++ _).lookup _ = _
  rw [fieldsOfRow_unbroken (by decide) unbroken]
  rfl

theorem firstField_encoding_of_unbroken {value encoding : Bytes} (typeUnbroken : Unbroken value)
    (unbroken : Unbroken encoding) :
    FirstField (ascii "content_encoding") (rowLines value encoding) encoding := by
  rw [← lookup_fields_eq_some_iff (by decide), rowLines, List.filterMap_append]
  change (fieldsOfRow (row (ascii "content_type") value) ++
    fieldsOfRow (row (ascii "content_encoding") encoding)).lookup _ = _
  rw [fieldsOfRow_unbroken (by decide) typeUnbroken, fieldsOfRow_unbroken (by decide) unbroken]
  rfl

section Reading

variable {fields : ResponseHead} {received : ℕ} {utf8 : Bool} {body : Bytes}

/-- What is looked up of the metadata under one of the two keys is a first field of the lines that
the server chooses. -/
theorem lookup_metadataText_eq_some_iff {key value : Bytes}
    (chosen : key = ascii "content_type" ∨ key = ascii "content_encoding")
    (typeLine : lf ∉ shownType fields) (encodingLine : lf ∉ shownEncoding fields) :
    (metadataFields (metadataText fields received utf8)).lookup key = some value ↔
      FirstField key (rowLines (shownType fields) (shownEncoding fields)) value := by
  have noTab : tab ∉ key := by
    rcases chosen with rfl | rfl <;> decide
  have others : (key == ascii "http_status") = false ∧
      [(ascii "declared_length", shownLength fields.contentLength),
        (ascii "received_length", decimal received),
        (ascii "utf8", if utf8 then ascii "valid" else ascii "invalid")].lookup key = none := by
    rcases chosen with rfl | rfl <;> exact ⟨by decide, rfl⟩
  rw [metadataFields_metadataText typeLine encodingLine, List.lookup_cons, others.1,
    ← lookup_fields_eq_some_iff noTab, rowLines, List.filterMap_append, ← List.append_assoc,
    List.lookup_append, others.2, Option.or_none]
  rfl

end Reading

/-! ## The way to the check -/

/-- A content type declares the charset. -/
def NamesCharset (contentType charset : Bytes) : Prop :=
  ∃ parameter ∈ parameters contentType, DeclaresCharset parameter charset

/-- The name of a charset: trimmed, in lower case, and as far as its first CR. -/
def charsetName (charset : Bytes) : Bytes := normal ((normal charset).takeWhile (· ≠ cr))

/-- The charset is declared by the content type, under the same name. -/
def ReachesType (charset contentType : Bytes) : Prop :=
  ∃ other, NamesCharset contentType other ∧ charsetName other = charsetName charset

/-- The declared type is not lost: the metadata do not call it unknown, and every charset it
declares is in the content type of the response that is built for a captured result, whose text is
refused unless the charset is supported. -/
def TypeReaches (fields : ResponseHead) (metadata body value : Bytes) : Prop :=
  (shownType fields = ascii "unknown" → value = ascii "unknown") ∧
    ∀ charset, NamesCharset value charset → ∀ code, code = 0 ∨ code = 10 →
      ∃ response, understandBytes code metadata body = .ok response ∧
        ReachesType charset response.contentType ∧
        (normal charset ∉ supportedCharsets → responseText response = .error .unsupportedEncoding)

/-- The first fields of the two rows keep the charset: it is declared by the content type among
them, and where it is not supported, that content type or the content coding is refused. -/
def CharsetKept (value encoding charset : Bytes) : Prop :=
  ∃ type coding, FirstField (ascii "content_type") (rowLines value encoding) type ∧
    FirstField (ascii "content_encoding") (rowLines value encoding) coding ∧
    ReachesType charset type ∧
    (normal charset ∉ supportedCharsets →
      foldCase coding ≠ ascii "identity" ∨ supportedCharset type = false)

/-- Unbroken values keep a charset that the check handles. -/
theorem charsetKept_of_unbroken {value encoding charset : Bytes} (typeUnbroken : Unbroken value)
    (encodingUnbroken : Unbroken encoding) (names : NamesCharset value charset)
    (checked : normal charset ∉ supportedCharsets → supportedCharset value = false) :
    CharsetKept value encoding charset :=
  ⟨value, encoding, firstField_type_of_unbroken typeUnbroken encoding,
    firstField_encoding_of_unbroken typeUnbroken encodingUnbroken, ⟨charset, names, rfl⟩,
    fun unsupported => Or.inr (checked unsupported)⟩

/-- The two results that say that a response was captured are understood alike. -/
theorem understandBytes_of_captured {code : ℤ} (captured : code = 0 ∨ code = 10)
    (metadata body : Bytes) :
    understandBytes code metadata body = understandBytes 0 metadata body := by
  unfold understandBytes
  rw [if_neg (not_not_intro captured), if_neg (not_not_intro (Or.inl rfl))]

/-- **A charset gets into the response and to the check** exactly when it is kept by the rows. -/
theorem charset_reaches_iff {fields : ResponseHead} (received : ℕ) (utf8 : Bool) (body : Bytes)
    {charset : Bytes} (typeLine : lf ∉ shownType fields)
    (encodingLine : lf ∉ shownEncoding fields) (low : 100 ≤ fields.status)
    (high : fields.status ≤ 599) :
    (∀ code, code = 0 ∨ code = 10 → ∃ response,
      understandBytes code (metadataText fields received utf8) body = .ok response ∧
        ReachesType charset response.contentType ∧
        (normal charset ∉ supportedCharsets →
          responseText response = .error .unsupportedEncoding)) ↔
      CharsetKept (shownType fields) (shownEncoding fields) charset := by
  constructor
  · intro reaches
    obtain ⟨response, understood, reached, refused⟩ := reaches 0 (Or.inl rfl)
    obtain ⟨_, _, _, encoding, type⟩ := understandBytes_ok understood
    refine ⟨response.contentType, response.encoding,
      (lookup_metadataText_eq_some_iff (Or.inl rfl) typeLine encodingLine).mp type,
      (lookup_metadataText_eq_some_iff (Or.inr rfl) typeLine encodingLine).mp encoding, reached, ?_⟩
    intro unsupported
    exact responseText_eq_unsupported_iff.mp (refused unsupported)
  · rintro ⟨type, coding, typeFirst, codingFirst, reached, refused⟩ code captured
    obtain ⟨response, understood, rfl, rfl⟩ : ∃ response,
        understandBytes 0 (metadataText fields received utf8) body = .ok response ∧
          response.contentType = type ∧ response.encoding = coding :=
      understandBytes_of_kept typeLine encodingLine low high
        ((lookup_metadataText_eq_some_iff (Or.inl rfl) typeLine encodingLine).mpr typeFirst)
        ((lookup_metadataText_eq_some_iff (Or.inr rfl) typeLine encodingLine).mpr codingFirst)
    refine ⟨response, (understandBytes_of_captured captured _ _).trans understood, reached, ?_⟩
    intro unsupported
    exact responseText_eq_unsupported_iff.mpr (refused unsupported)

/-- **When a declared content type reaches the check of the charset.** Take a head that was accepted
and declares a type, and the metadata written for it and for a body. The type is not lost exactly
when its value has at most 255 bytes and the rows of the metadata keep every charset that it
declares. -/
theorem declared_type_reaches_iff (connection : Connection) (head stream value : Bytes)
    (fields : ResponseHead) (bodyPrefix : Bytes) (rest : List Chunk) (body metadata path : Bytes)
    (file : MetadataFile) (received : ℕ) (bodyFile : Option Bytes) (isHead : IsHead head)
    (sent : delivered connection.chunks = head ++ stream)
    (accepted : readResponseHead connection = .accepted fields bodyPrefix rest)
    (declares : DeclaresType head value)
    (written : writeResponseMetadata (some path) file fields received bodyFile =
      (true, some metadata)) :
    TypeReaches fields metadata body value ↔
      value.length < 256 ∧
        ∀ charset, NamesCharset value charset →
          CharsetKept value (shownEncoding fields) charset := by
  obtain ⟨parsed, _⟩ := readResponseHead_accepted isHead sent accepted
  obtain ⟨typeLine, encodingLine, low, high⟩ := shown_of_parseResponseHead isHead parsed
  rw [(writeResponseMetadata_eq written).2]
  by_cases fits : value.length < 256
  · have shown := declares.shownType_of_fits isHead parsed fits
    have kept : ∀ charset, _ ↔ CharsetKept (shownType fields) (shownEncoding fields) charset :=
      fun charset => charset_reaches_iff received (validUtf8File bodyFile = some true) body typeLine
        encodingLine low high
    rw [shown] at kept
    constructor
    · intro reaches
      exact ⟨fits, fun charset names => (kept charset).mp (reaches.2 charset names)⟩
    · intro condition
      refine ⟨fun unknown => shown.symm.trans unknown, fun charset names => ?_⟩
      exact (kept charset).mpr (condition.2 charset names)
  · have shown := declares.shownType_of_long isHead parsed fits
    constructor
    · intro reaches
      exact absurd (reaches.1 shown ▸ by decide) fits
    · intro condition
      exact absurd condition.1 fits

/-- A content type with an unsupported charset and a parameter of so many letters. -/
def koi8Type (count : ℕ) : Bytes := ascii "text/html; charset=koi8-r; x=" ++ filler count

/-- A head with that content type. -/
def koi8Head (count : ℕ) : Bytes :=
  ascii "HTTP/1.0 200 OK\r\nContent-Type: " ++ koi8Type count ++ (crlf ++ crlf)

/-- A response with a content type of 269 bytes. -/
def koi8Response : Connection :=
  ⟨[⟨koi8Head 240 ++ ascii "hi", by decide, by decide +kernel⟩], .closed⟩

/-- What is kept of its head. -/
def koi8Fields : ResponseHead := (parseResponseHead (koi8Head 240)).get (by decide +kernel)

/-- The metadata of that response. -/
def koi8Metadata : Bytes :=
  ascii "http_status\t200\ncontent_type\tunknown\ncontent_encoding\tidentity\n" ++
    ascii "declared_length\t-1\nreceived_length\t2\nutf8\tvalid\n"

theorem koi8Response_decoded :
    ∃ response, IsHead (koi8Head 240) ∧ DeclaresType (koi8Head 240) (koi8Type 240) ∧
      delivered koi8Response.chunks = koi8Head 240 ++ ascii "hi" ∧
      readResponseHead koi8Response = .accepted koi8Fields (ascii "hi") [] ∧
      writeResponseMetadata (some (ascii "m")) ⟨true, true, true⟩ koi8Fields 2
        (some (ascii "hi")) = (true, some koi8Metadata) ∧
      understandBytes 0 koi8Metadata (ascii "hi") = .ok response ∧
      supportedCharset (koi8Type 240) = false ∧ responseText response = .ok ⟨200, ascii "hi"⟩ ∧
      ¬ TypeReaches koi8Fields koi8Metadata (ascii "hi") (koi8Type 240) := by
  have understood : understandBytes 0 koi8Metadata (ascii "hi") =
      .ok ⟨200, ascii "hi", ascii "identity", ascii "unknown", true⟩ := by decide +kernel
  have declares : DeclaresType (koi8Head 240) (koi8Type 240) :=
    ⟨[], ascii "Content-Type: " ++ koi8Type 240 ++ [cr], [[cr]], by decide +kernel,
      by decide +kernel, by decide, by decide +kernel, by decide +kernel, by decide +kernel⟩
  refine ⟨_, by decide +kernel, declares, by decide +kernel, by decide +kernel, by decide +kernel,
    understood, by decide +kernel, by decide +kernel, fun reaches => ?_⟩
  have same : koi8Type 240 = ascii "unknown" := reaches.1 (by decide +kernel)
  exact absurd same (by decide +kernel)

/-- A response with a content type of 29 bytes. -/
def shortKoi8Response : Connection :=
  ⟨[⟨koi8Head 0 ++ ascii "hi", by decide, by decide +kernel⟩], .closed⟩

/-- What is kept of its head. -/
def shortKoi8Fields : ResponseHead := (parseResponseHead (koi8Head 0)).get (by decide +kernel)

/-- The metadata of that response. -/
def shortKoi8Metadata : Bytes :=
  ascii "http_status\t200\ncontent_type\ttext/html; charset=koi8-r; x=\n" ++
    ascii "content_encoding\tidentity\ndeclared_length\t-1\nreceived_length\t2\nutf8\tvalid\n"

theorem declared_type_reaches_iff_short :
    NamesCharset (koi8Type 0) (ascii "koi8-r") ∧ normal (ascii "koi8-r") ∉ supportedCharsets ∧
      TypeReaches shortKoi8Fields shortKoi8Metadata (ascii "hi") (koi8Type 0) := by
  have declares : DeclaresType (koi8Head 0) (koi8Type 0) :=
    ⟨[], ascii "Content-Type: " ++ koi8Type 0 ++ [cr], [[cr]], by decide +kernel,
      by decide +kernel, by decide, by decide +kernel, by decide +kernel, by decide +kernel⟩
  have names : NamesCharset (koi8Type 0) (ascii "koi8-r") :=
    ⟨ascii " charset=koi8-r", by decide +kernel, ascii " charset", by decide, by decide,
      by decide +kernel⟩
  refine ⟨names, by decide +kernel, ?_⟩
  refine (declared_type_reaches_iff shortKoi8Response (koi8Head 0) (ascii "hi") (koi8Type 0)
    shortKoi8Fields (ascii "hi") [] (ascii "hi") shortKoi8Metadata (ascii "m") ⟨true, true, true⟩ 2
    (some (ascii "hi")) (by decide +kernel) (by decide +kernel) (by decide +kernel) declares
    (by decide +kernel)).mpr ⟨by decide +kernel, fun charset named => ?_⟩
  exact charsetKept_of_unbroken (by decide +kernel) (by decide +kernel) named fun _ => by
    decide +kernel

end IcuTransport.Capture
