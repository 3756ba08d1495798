import IcuTransport.Capture.Metadata
import IcuTransport.Wire.Segmentation
import IcuTransport.Wire.Framing

/-!
# Reading the metadata back

The client reads the metadata of a capture as text: `lines` cuts it at an LF, a CRLF and a lone CR,
a line of exactly two pieces between tabs is a field, and the first field of a name counts. The
values of two rows are chosen by the server, which can put a CR or a tab into them.

The rows come back as they were written exactly when neither value holds a CR or a tab, or when
the breaks lose one of the two fields and no response is built (`verdictsHold_iff`).
-/

set_option autoImplicit false

namespace IcuTransport.Capture

open Ascii TextScan Wire

/-! ## The code -/

/-- Why a capture fails for its caller. -/
inductive CaptureFailure where
  | invalidRequest
  | connectionFailure
  | tlsFailure
  | requestWriteFailure
  | malformedResponse
  | redirectFailure
  | truncatedResponse
  | timeout
  | resourceLimit
  | captureIOFailure
  | invalidUTF8
  | unsupportedEncoding
  | proxyFailure
  deriving DecidableEq, Repr

/-- The failure a native result stands for. -/
def captureFailure : ℤ → CaptureFailure
  | 2 => .invalidRequest
  | 3 => .invalidRequest
  | 4 => .connectionFailure
  | 5 => .tlsFailure
  | 6 => .requestWriteFailure
  | 8 => .redirectFailure
  | 9 => .truncatedResponse
  | 11 => .timeout
  | 12 => .resourceLimit
  | 13 => .malformedResponse
  | 14 => .proxyFailure
  | _ => .captureIOFailure

/-- A captured response. -/
structure HTTPBytesResponse where
  status : ℕ
  bodyBytes : Bytes
  encoding : Bytes
  contentType : Bytes
  utf8Valid : Bool
  deriving DecidableEq, Repr

/-- The lines of a text, after the given start of the first of them. An LF, a CRLF and a lone CR
end a line. -/
def linesFrom : Bytes → Bytes → List Bytes
  | pending, [] => if pending = [] then [] else [pending]
  | pending, byte :: rest =>
      if byte = lf then pending :: linesFrom [] rest
      else if byte = cr then
        match rest with
        | [] => pending :: linesFrom [] []
        | next :: after =>
            if next = lf then pending :: linesFrom [] after
            else pending :: linesFrom [] (next :: after)
      else linesFrom (pending ++ [byte]) rest

/-- The lines of a text. -/
def lines (text : Bytes) : List Bytes := linesFrom [] text

/-- A line as a field: it has exactly two pieces between tabs. -/
def fieldOf (line : Bytes) : Option (Bytes × Bytes) :=
  match line.splitOn tab with
  | [key, value] => some (key, value)
  | _ => none

/-- The fields of a metadata text. -/
def metadataFields (text : Bytes) : List (Bytes × Bytes) := (lines text).filterMap fieldOf

/-- The status a text of three digits stands for. -/
def statusOf (text : Bytes) : Option ℕ :=
  if text.length = 3 ∧ text.all isDigit ∧ 100 ≤ numeralValue text ∧ numeralValue text ≤ 599 then
    some (numeralValue text)
  else none

/-- The response that a native result, its metadata and its body stand for. -/
def understandBytes (transportCode : ℤ) (metadata bytes : Bytes) :
    Except CaptureFailure HTTPBytesResponse :=
  if ¬ (transportCode = 0 ∨ transportCode = 10) then .error (captureFailure transportCode)
  else
    let fields := metadataFields metadata
    match fields.lookup (ascii "http_status"), fields.lookup (ascii "utf8"),
      fields.lookup (ascii "content_encoding"), fields.lookup (ascii "content_type") with
    | some statusText, some utf8, some encoding, some contentType =>
        match statusOf statusText with
        | some status => .ok ⟨status, bytes, encoding, contentType, utf8 = ascii "valid"⟩
        | none => .error .malformedResponse
    | _, _, _, _ => .error .malformedResponse

/-! ## Fields -/

/-- A field is a key and a value with one tab between them. -/
theorem fieldOf_eq_some_iff {line key value : Bytes} :
    fieldOf line = some (key, value) ↔ line = row key value ∧ tab ∉ key ∧ tab ∉ value := by
  constructor
  · intro found
    cases cut : splitFirst tab line with
    | none =>
        rw [fieldOf, List.splitOn_eq_singleton (splitFirst_eq_none_iff.mp cut)] at found
        cases found
    | some parts =>
        obtain ⟨before, after⟩ := parts
        obtain ⟨rfl, noTab⟩ := splitFirst_eq_some_iff.mp cut
        rw [fieldOf, List.splitOn_append_cons_self, List.splitOn_eq_singleton noTab] at found
        cases again : splitFirst tab after with
        | none =>
            have noTab' := splitFirst_eq_none_iff.mp again
            rw [List.splitOn_eq_singleton noTab'] at found
            obtain ⟨rfl, rfl⟩ := Prod.mk.inj (Option.some.inj found)
            exact ⟨rfl, noTab, noTab'⟩
        | some parts =>
            obtain ⟨second, third⟩ := parts
            obtain ⟨rfl, noTab'⟩ := splitFirst_eq_some_iff.mp again
            rw [List.splitOn_append_cons_self, List.splitOn_eq_singleton noTab'] at found
            cases pieces : third.splitOn tab with
            | nil => exact absurd pieces (List.splitOn_ne_nil tab third)
            | cons piece others =>
                rw [pieces] at found
                cases found
  · rintro ⟨rfl, noTab, noTab'⟩
    rw [fieldOf, row, List.splitOn_append_cons_self, List.splitOn_eq_singleton noTab,
      List.splitOn_eq_singleton noTab']
    rfl

/-- The fields that come back from one written row. -/
def fieldsOfRow (written : Bytes) : List (Bytes × Bytes) := (written.splitOn cr).filterMap fieldOf

theorem linesFrom_lf (pending rest : Bytes) :
    linesFrom pending (lf :: rest) = pending :: linesFrom [] rest := by
  conv => lhs; unfold linesFrom
  rw [if_pos rfl]

theorem linesFrom_crlf (pending rest : Bytes) :
    linesFrom pending (cr :: lf :: rest) = pending :: linesFrom [] rest := by
  rw [linesFrom, if_neg (by decide), if_pos rfl, if_pos rfl]

theorem linesFrom_cr {next : UInt8} (other : next ≠ lf) (pending rest : Bytes) :
    linesFrom pending (cr :: next :: rest) = pending :: linesFrom [] (next :: rest) := by
  rw [linesFrom, if_neg (by decide), if_pos rfl, if_neg other]

theorem linesFrom_other {byte : UInt8} (noLf : byte ≠ lf) (noCr : byte ≠ cr)
    (pending rest : Bytes) :
    linesFrom pending (byte :: rest) = linesFrom (pending ++ [byte]) rest := by
  conv => lhs; unfold linesFrom
  rw [if_neg noLf, if_neg noCr]

/-- The lines of a row without an LF are its pieces between CRs. Where the row ends with a CR, an
empty line is lost, which is no field. -/
theorem filterMap_linesFrom {written : Bytes} (noLf : lf ∉ written) (pending rest : Bytes) :
    (linesFrom pending (written ++ lf :: rest)).filterMap fieldOf =
      ((written.splitOn cr).modifyHead (pending ++ ·)).filterMap fieldOf ++
        (linesFrom [] rest).filterMap fieldOf := by
  have first : ∀ (line : Bytes) (others : List Bytes), (line :: others).filterMap fieldOf =
      [line].filterMap fieldOf ++ others.filterMap fieldOf := fun line others =>
    List.filterMap_append (l := [line])
  induction written generalizing pending with
  | nil =>
      rw [List.nil_append, linesFrom_lf, ← List.filterMap_append]
      simp
  | cons byte written ih =>
      rw [List.mem_cons, not_or] at noLf
      obtain ⟨other, noLf⟩ := noLf
      by_cases isCr : byte = cr
      · subst isCr
        rw [List.splitOn_cons_eq_if_modifyHead, if_pos (by decide)]
        cases written with
        | nil =>
            have noField : [([] : Bytes)].filterMap fieldOf = [] := rfl
            rw [List.cons_append, List.nil_append, linesFrom_crlf, List.splitOn_nil,
              List.modifyHead_cons, List.append_nil, first pending, first pending [[]], noField,
              List.append_nil]
        | cons next written =>
            have nextOther : next ≠ lf := fun same => noLf (same ▸ List.mem_cons_self)
            have same : ∀ pieces : List Bytes, pieces.modifyHead ([] ++ ·) = pieces :=
              fun pieces => by
              cases pieces <;> rfl
            rw [List.cons_append, List.cons_append, linesFrom_cr nextOther, ← List.cons_append,
              first, ih noLf [], same, List.modifyHead_cons, List.append_nil,
              first pending ((next :: written).splitOn cr), List.append_assoc]
      · rw [List.cons_append, linesFrom_other (Ne.symm other) isCr, ih noLf,
          List.splitOn_cons_eq_if_modifyHead, if_neg (by simpa using isCr),
          List.modifyHead_modifyHead]
        simp [Function.comp_def]

/-- **The fields of rows without an LF** are the fields of each of them. -/
theorem metadataFields_joinLines {rows : List Bytes} (noLf : ∀ written ∈ rows, lf ∉ written) :
    metadataFields (joinLines [lf] rows) = rows.flatMap fieldsOfRow := by
  unfold metadataFields lines
  induction rows with
  | nil => rfl
  | cons written rows ih =>
      have same : ∀ pieces : List Bytes, pieces.modifyHead ([] ++ ·) = pieces := fun pieces => by
        cases pieces <;> rfl
      rw [joinLines_cons, List.append_assoc, List.singleton_append,
        filterMap_linesFrom (noLf written List.mem_cons_self), same,
        ih fun other member => noLf other (List.mem_cons_of_mem written member), List.flatMap_cons]
      rfl

/-- A field that came back holds neither a tab nor a CR. -/
theorem value_of_mem_fieldsOfRow {written key value : Bytes}
    (member : (key, value) ∈ fieldsOfRow written) : cr ∉ value ∧ tab ∉ value := by
  obtain ⟨piece, inRow, field⟩ := List.mem_filterMap.mp member
  obtain ⟨rfl, _, noTab⟩ := fieldOf_eq_some_iff.mp field
  refine ⟨fun inValue => not_mem_of_mem_splitOn inRow ?_, noTab⟩
  exact List.mem_append_right key (List.mem_cons_of_mem tab inValue)

/-! ## Broken values -/

/-- The value holds neither a CR nor a tab. -/
def Unbroken (value : Bytes) : Prop := cr ∉ value ∧ tab ∉ value

instance (value : Bytes) : Decidable (Unbroken value) :=
  inferInstanceAs (Decidable (cr ∉ value ∧ tab ∉ value))

/-- What stands in the line of the key. -/
def ownPiece (value : Bytes) : Bytes := (value.splitOn cr).headD []

/-- What stands in lines of its own. -/
def strayPieces (value : Bytes) : List Bytes := (value.splitOn cr).tail

/-- No field of the key comes back: its own line holds a second tab, and no stray line is a field
of the key. -/
def FieldLost (key own : Bytes) (strays : List Bytes) : Prop :=
  tab ∈ own ∧ ∀ stray ∈ strays, ∀ value, stray = row key value → tab ∈ value

theorem fieldsOfRow_row {key : Bytes} (noCr : cr ∉ key) (value : Bytes) :
    fieldsOfRow (row key value) =
      (fieldOf (row key (ownPiece value))).toList ++ (strayPieces value).filterMap fieldOf := by
  have start : cr ∉ key ++ [tab] := by
    rw [List.mem_append, not_or]
    exact ⟨noCr, by decide⟩
  have whole : row key value = (key ++ [tab]) ++ value := by simp [row]
  unfold fieldsOfRow ownPiece strayPieces
  rw [whole, splitOn_append_of_not_mem start]
  cases pieces : value.splitOn cr with
  | nil => exact absurd pieces (List.splitOn_ne_nil cr value)
  | cons own strays =>
      rw [List.modifyHead_cons, List.headD_cons, List.tail_cons]
      have same : key ++ [tab] ++ own = row key own := by simp [row]
      rw [same]
      cases field : fieldOf (row key own) with
      | none => rw [List.filterMap_cons_none field]; rfl
      | some found => rw [List.filterMap_cons_some field]; rfl

theorem fieldsOfRow_unbroken {key value : Bytes} (keyUnbroken : Unbroken key)
    (unbroken : Unbroken value) : fieldsOfRow (row key value) = [(key, value)] := by
  have field : fieldOf (row key value) = some (key, value) :=
    fieldOf_eq_some_iff.mpr ⟨rfl, keyUnbroken.2, unbroken.2⟩
  have single : value.splitOn cr = [value] := List.splitOn_eq_singleton unbroken.1
  rw [fieldsOfRow_row keyUnbroken.1, ownPiece, strayPieces, single]
  simp [field]

/-- A stray line is a field of a key exactly when it is a row of it. -/
theorem lookup_strays_eq_none_iff {key : Bytes} (noTab : tab ∉ key) {strays : List Bytes} :
    (strays.filterMap fieldOf).lookup key = none ↔
      ∀ stray ∈ strays, ∀ value, stray = row key value → tab ∈ value := by
  rw [List.lookup_eq_none_iff]
  constructor
  · intro others stray member value same
    by_contra noTab'
    have field : fieldOf stray = some (key, value) := fieldOf_eq_some_iff.mpr ⟨same, noTab, noTab'⟩
    have differs := others (key, value) (List.mem_filterMap.mpr ⟨stray, member, field⟩)
    simp at differs
  · rintro lost ⟨other, value⟩ member
    obtain ⟨stray, inStrays, field⟩ := List.mem_filterMap.mp member
    obtain ⟨same, _, noTab'⟩ := fieldOf_eq_some_iff.mp field
    rw [bne_iff_ne]
    rintro rfl
    exact noTab' (lost stray inStrays value same)

/-- What a row gives for a key: its own line is lost with a tab, and its stray lines are none. -/
theorem lookup_fieldsOfRow_eq_none_iff {rowKey key : Bytes} (unbroken : Unbroken rowKey)
    (noTab : tab ∉ key) (value : Bytes) :
    (fieldsOfRow (row rowKey value)).lookup key = none ↔
      (rowKey = key → tab ∈ ownPiece value) ∧
        ∀ stray ∈ strayPieces value, ∀ other, stray = row key other → tab ∈ other := by
  rw [fieldsOfRow_row unbroken.1, List.lookup_append, Option.or_eq_none_iff,
    lookup_strays_eq_none_iff noTab]
  refine and_congr_left fun _ => ?_
  by_cases held : tab ∈ ownPiece value
  · have noField : fieldOf (row rowKey (ownPiece value)) = none := by
      cases field : fieldOf (row rowKey (ownPiece value)) with
      | none => rfl
      | some found =>
          obtain ⟨key', value'⟩ := found
          obtain ⟨same, noTab', noTab''⟩ := fieldOf_eq_some_iff.mp field
          have cut := splitFirst_append_cons unbroken.2 (ownPiece value)
          rw [← row, same, row, splitFirst_append_cons noTab'] at cut
          obtain ⟨_, rfl⟩ := Prod.mk.inj (Option.some.inj cut)
          exact absurd held noTab''
    simp [noField, held]
  · have field : fieldOf (row rowKey (ownPiece value)) = some (rowKey, ownPiece value) :=
      fieldOf_eq_some_iff.mpr ⟨rfl, unbroken.2, held⟩
    simp only [field, Option.toList_some, List.lookup_eq_none_iff, List.mem_singleton, forall_eq,
      bne_iff_ne, ne_eq, held, imp_false]
    exact not_congr eq_comm

/-! ## The fields of a capture -/

theorem unbroken_of_visible {text : Bytes} (visible : Visible text) : Unbroken text :=
  ⟨visible.not_mem (by decide), visible.not_mem (by decide)⟩

theorem visible_shownLength (length : Option ℕ) : Visible (shownLength length) := by
  cases length with
  | none => decide
  | some number => exact visible_decimal number

section Text

variable {head : ResponseHead} {received : ℕ} {utf8 : Bool}

theorem visible_verdict : Visible (if utf8 then ascii "valid" else ascii "invalid") := by
  cases utf8 <;> decide

theorem lf_not_mem_metadataRows (typeLine : lf ∉ shownType head)
    (encodingLine : lf ∉ shownEncoding head) :
    ∀ written ∈ metadataRows head received utf8, lf ∉ written := by
  have noLf : ∀ {key value : Bytes}, lf ∉ key → lf ∉ value → lf ∉ row key value := by
    intro key value noKey noValue
    rw [row, List.mem_append, List.mem_cons, not_or, not_or]
    exact ⟨noKey, by decide, noValue⟩
  simp only [metadataRows, List.mem_cons, List.not_mem_nil, or_false, forall_eq_or_imp, forall_eq]
  refine ⟨noLf (by decide) ?_, noLf (by decide) typeLine, noLf (by decide) encodingLine,
    noLf (by decide) ?_, noLf (by decide) ?_, noLf (by decide) ?_⟩
  · exact (visible_decimal _).not_mem (by decide)
  · exact (visible_shownLength _).not_mem (by decide)
  · exact (visible_decimal _).not_mem (by decide)
  · exact visible_verdict.not_mem (by decide)

/-- The rows that the server does not choose come back as they were written. -/
theorem metadataFields_metadataText (typeLine : lf ∉ shownType head)
    (encodingLine : lf ∉ shownEncoding head) :
    metadataFields (metadataText head received utf8) =
      (ascii "http_status", decimal head.status) ::
        (fieldsOfRow (row (ascii "content_type") (shownType head)) ++
          (fieldsOfRow (row (ascii "content_encoding") (shownEncoding head)) ++
            [(ascii "declared_length", shownLength head.contentLength),
              (ascii "received_length", decimal received),
              (ascii "utf8", if utf8 then ascii "valid" else ascii "invalid")])) := by
  rw [metadataText, metadataFields_joinLines (lf_not_mem_metadataRows typeLine encodingLine)]
  simp only [metadataRows, List.flatMap_cons, List.flatMap_nil, List.append_nil]
  rw [fieldsOfRow_unbroken (by decide) (unbroken_of_visible (visible_decimal head.status)),
    fieldsOfRow_unbroken (by decide) (unbroken_of_visible (visible_shownLength head.contentLength)),
    fieldsOfRow_unbroken (by decide) (unbroken_of_visible (visible_decimal received)),
    fieldsOfRow_unbroken (by decide) (unbroken_of_visible visible_verdict)]
  rfl

/-- A field that the server can break is lost exactly when no line gives it. -/
theorem lookup_metadataText_eq_none_iff {key : Bytes} (noTab : tab ∉ key)
    (notStatus : key ≠ ascii "http_status") (notDeclared : key ≠ ascii "declared_length")
    (notReceived : key ≠ ascii "received_length") (notUtf8 : key ≠ ascii "utf8")
    (typeLine : lf ∉ shownType head) (encodingLine : lf ∉ shownEncoding head) :
    (metadataFields (metadataText head received utf8)).lookup key = none ↔
      ((ascii "content_type" = key → tab ∈ ownPiece (shownType head)) ∧
        (ascii "content_encoding" = key → tab ∈ ownPiece (shownEncoding head))) ∧
      ∀ stray ∈ strayPieces (shownType head) ++ strayPieces (shownEncoding head),
        ∀ value, stray = row key value → tab ∈ value := by
  have status : (key == ascii "http_status") = false := beq_eq_false_iff_ne.mpr notStatus
  rw [metadataFields_metadataText typeLine encodingLine, List.lookup_cons, status]
  simp only [List.lookup_append, Option.or_eq_none_iff]
  rw [lookup_fieldsOfRow_eq_none_iff (by decide) noTab,
    lookup_fieldsOfRow_eq_none_iff (by decide) noTab]
  simp only [List.lookup_eq_none_iff, List.mem_cons, List.not_mem_nil, or_false, forall_eq_or_imp,
    forall_eq, bne_iff_ne, ne_eq, notDeclared, notReceived, notUtf8, not_false_eq_true, and_true,
    List.mem_append]
  constructor
  · rintro ⟨⟨type, strays⟩, encoding, strays'⟩
    exact ⟨⟨type, encoding⟩, fun stray member => member.elim (strays stray) (strays' stray)⟩
  · rintro ⟨⟨type, encoding⟩, strays⟩
    exact ⟨⟨type, fun stray member => strays stray (Or.inl member)⟩, encoding,
      fun stray member => strays stray (Or.inr member)⟩

/-- **When the field of the content type is lost.** -/
theorem lookup_type_eq_none_iff (typeLine : lf ∉ shownType head)
    (encodingLine : lf ∉ shownEncoding head) :
    (metadataFields (metadataText head received utf8)).lookup (ascii "content_type") = none ↔
      FieldLost (ascii "content_type") (ownPiece (shownType head))
        (strayPieces (shownType head) ++ strayPieces (shownEncoding head)) := by
  rw [lookup_metadataText_eq_none_iff (by decide) (by decide) (by decide) (by decide) (by decide)
    typeLine encodingLine, FieldLost]
  exact and_congr_left fun _ => ⟨fun own => own.1 rfl,
    fun own => ⟨fun _ => own, fun same => absurd same (by decide)⟩⟩

/-- **When the field of the content coding is lost.** -/
theorem lookup_encoding_eq_none_iff (typeLine : lf ∉ shownType head)
    (encodingLine : lf ∉ shownEncoding head) :
    (metadataFields (metadataText head received utf8)).lookup (ascii "content_encoding") = none ↔
      FieldLost (ascii "content_encoding") (ownPiece (shownEncoding head))
        (strayPieces (shownType head) ++ strayPieces (shownEncoding head)) := by
  rw [lookup_metadataText_eq_none_iff (by decide) (by decide) (by decide) (by decide) (by decide)
    typeLine encodingLine, FieldLost]
  exact and_congr_left fun _ => ⟨fun own => own.2 rfl,
    fun own => ⟨fun same => absurd same (by decide), fun _ => own⟩⟩

/-- A value that was looked up is unbroken. -/
theorem unbroken_of_lookup (typeLine : lf ∉ shownType head) (encodingLine : lf ∉ shownEncoding head)
    {key value : Bytes}
    (found : (metadataFields (metadataText head received utf8)).lookup key = some value) :
    Unbroken value := by
  obtain ⟨before, after, split, _⟩ := List.lookup_eq_some_iff.mp found
  have member : (key, value) ∈ metadataFields (metadataText head received utf8) :=
    split ▸ List.mem_append_right before List.mem_cons_self
  rw [metadataText,
    metadataFields_joinLines (lf_not_mem_metadataRows typeLine encodingLine)] at member
  obtain ⟨written, _, inRow⟩ := List.mem_flatMap.mp member
  exact value_of_mem_fieldsOfRow inRow

end Text

/-! ## What the server can forge -/

theorem statusOf_decimal {status : ℕ} (low : 100 ≤ status) (high : status ≤ 599) :
    statusOf (decimal status) = some status := by
  have digits : (decimal status).all isDigit = true :=
    List.all_eq_true.mpr (isNumeral_decimal status).2
  rw [statusOf, numeralValue_decimal,
    if_pos ⟨length_decimal_three low (by omega), digits, low, high⟩]

/-- The values shown of a parsed head are parts of lines, and its status is in range. -/
theorem shown_of_parseResponseHead {head : Bytes} {fields : ResponseHead} (isHead : IsHead head)
    (parsed : parseResponseHead head = some fields) :
    lf ∉ shownType fields ∧ lf ∉ shownEncoding fields ∧ 100 ≤ fields.status ∧
      fields.status ≤ 599 := by
  obtain ⟨_, low, high, _, _, type, encoding⟩ := parseResponseHead_fields parsed
  have shown : ∀ {capacity : ℕ} {array : CharArray capacity} {instead : Bytes},
      lf ∉ array.bytes → lf ∉ instead → lf ∉ shownOr instead array := by
    intro capacity array instead noLf noLf'
    unfold shownOr
    split
    · exact noLf'
    · exact fun member => noLf ((List.takeWhile_sublist _).subset member)
  have copied : ∀ {capacity : ℕ} {name : Bytes} {default : CharArray capacity},
      lf ∉ default.bytes → lf ∉ ((copyHeaderValue head name capacity).getD default).bytes := by
    intro capacity name default noLf
    cases value : copyHeaderValue head name capacity with
    | none => exact noLf
    | some array => exact lf_not_mem_of_copyHeaderValue isHead.terminated value
  refine ⟨shown ?_ (by decide), shown ?_ (by decide), low, high⟩
  · rw [type]
    exact copied (by decide)
  · rw [encoding, declaredEncoding]
    split
    · decide
    · exact copied (by decide)

/-- A response that is built from the metadata tells the truth about the body and the head: UTF-8 is
reported only of UTF-8, and the content coding and type are those of the head. -/
def VerdictsHold (fields : ResponseHead) (metadata body : Bytes) : Prop :=
  ∀ code response, understandBytes code metadata body = .ok response →
    (response.utf8Valid = true → WellFormedUtf8 body) ∧
      response.encoding = shownEncoding fields ∧ response.contentType = shownType fields

/-- The condition under which the server cannot forge a verdict. Either both values come back whole,
or one of the two fields is lost and no response is built. -/
def ForgesNothing (fields : ResponseHead) : Prop :=
  (Unbroken (shownType fields) ∧ Unbroken (shownEncoding fields)) ∨
    FieldLost (ascii "content_type") (ownPiece (shownType fields))
      (strayPieces (shownType fields) ++ strayPieces (shownEncoding fields)) ∨
    FieldLost (ascii "content_encoding") (ownPiece (shownEncoding fields))
      (strayPieces (shownType fields) ++ strayPieces (shownEncoding fields))

section Forgery

variable {fields : ResponseHead} {received : ℕ} {utf8 : Bool} {body : Bytes}

theorem understandBytes_ok {metadata : Bytes} {code : ℤ} {response : HTTPBytesResponse}
    (understood : understandBytes code metadata body = .ok response) :
    ∃ verdict, (metadataFields metadata).lookup (ascii "utf8") = some verdict ∧
      response.utf8Valid = decide (verdict = ascii "valid") ∧
      (metadataFields metadata).lookup (ascii "content_encoding") = some response.encoding ∧
      (metadataFields metadata).lookup (ascii "content_type") = some response.contentType := by
  unfold understandBytes at understood
  split at understood
  · cases understood
  · dsimp only at understood
    split at understood
    · rename_i statusText verdict encoding type _ verdictFound encodingFound typeFound
      split at understood
      · cases understood
        exact ⟨verdict, verdictFound, rfl, encodingFound, typeFound⟩
      · cases understood
    · cases understood

/-- Unbroken values come back whole. -/
theorem verdictsHold_of_unbroken (typeUnbroken : Unbroken (shownType fields))
    (encodingUnbroken : Unbroken (shownEncoding fields)) (typeLine : lf ∉ shownType fields)
    (encodingLine : lf ∉ shownEncoding fields) (truthful : utf8 = true → WellFormedUtf8 body) :
    VerdictsHold fields (metadataText fields received utf8) body := by
  intro code response understood
  obtain ⟨verdict, verdictFound, valid, encoding, type⟩ := understandBytes_ok understood
  have same : metadataFields (metadataText fields received utf8) = _ :=
    metadataFields_metadataText typeLine encodingLine
  rw [fieldsOfRow_unbroken (by decide) typeUnbroken,
    fieldsOfRow_unbroken (by decide) encodingUnbroken] at same
  rw [same] at verdictFound encoding type
  have verdictFound : some (if utf8 then ascii "valid" else ascii "invalid") = some verdict :=
    verdictFound
  have encoding : some (shownEncoding fields) = some response.encoding := encoding
  have type : some (shownType fields) = some response.contentType := type
  refine ⟨fun reported => truthful ?_, (Option.some.inj encoding).symm, (Option.some.inj type).symm⟩
  rw [valid, decide_eq_true_eq, ← Option.some.inj verdictFound] at reported
  cases utf8 with
  | true => rfl
  | false => exact absurd reported (by decide)

/-- Where no field is lost, a response is built. -/
theorem understandBytes_of_kept (typeLine : lf ∉ shownType fields)
    (encodingLine : lf ∉ shownEncoding fields) (low : 100 ≤ fields.status)
    (high : fields.status ≤ 599) {type encoding : Bytes}
    (typeFound :
      (metadataFields (metadataText fields received utf8)).lookup (ascii "content_type") =
      some type)
    (encodingFound : (metadataFields (metadataText fields received utf8)).lookup
      (ascii "content_encoding") = some encoding) :
    ∃ response, understandBytes 0 (metadataText fields received utf8) body = .ok response ∧
      response.contentType = type ∧ response.encoding = encoding := by
  have status : (metadataFields (metadataText fields received utf8)).lookup (ascii "http_status") =
      some (decimal fields.status) := by
    rw [metadataFields_metadataText typeLine encodingLine, List.lookup_cons_self]
  obtain ⟨verdict, verdictFound⟩ : ∃ verdict,
      (metadataFields (metadataText fields received utf8)).lookup (ascii "utf8") =
        some verdict := by
    rw [← Option.isSome_iff_exists, List.lookup_isSome_iff,
      metadataFields_metadataText typeLine encodingLine]
    refine ⟨(ascii "utf8", if utf8 then ascii "valid" else ascii "invalid"), ?_, beq_self_eq_true _⟩
    simp
  refine ⟨⟨fields.status, body, encoding, type, verdict = ascii "valid"⟩, ?_, rfl, rfl⟩
  rw [understandBytes, if_neg (by decide)]
  simp only [status, verdictFound, encodingFound, typeFound, statusOf_decimal low high]

/-- **A parsed head forges no verdict exactly when the condition holds.** -/
theorem verdictsHold_iff {head : Bytes} (isHead : IsHead head)
    (parsed : parseResponseHead head = some fields) (truthful : utf8 = true → WellFormedUtf8 body) :
    VerdictsHold fields (metadataText fields received utf8) body ↔ ForgesNothing fields := by
  obtain ⟨typeLine, encodingLine, low, high⟩ := shown_of_parseResponseHead isHead parsed
  constructor
  · intro holds
    cases type :
      (metadataFields (metadataText fields received utf8)).lookup (ascii "content_type") with
    | none => exact Or.inr (Or.inl ((lookup_type_eq_none_iff typeLine encodingLine).mp type))
    | some typeValue =>
        cases encoding : (metadataFields (metadataText fields received utf8)).lookup
            (ascii "content_encoding") with
        | none =>
            exact Or.inr (Or.inr ((lookup_encoding_eq_none_iff typeLine encodingLine).mp encoding))
        | some encodingValue =>
            obtain ⟨response, understood, rfl, rfl⟩ : ∃ response,
                understandBytes 0 (metadataText fields received utf8) body = .ok response ∧
                  response.contentType = typeValue ∧ response.encoding = encodingValue :=
              understandBytes_of_kept typeLine encodingLine low high type encoding
            obtain ⟨_, encodingSame, typeSame⟩ := holds 0 response understood
            left
            rw [← typeSame, ← encodingSame]
            exact ⟨unbroken_of_lookup typeLine encodingLine type,
              unbroken_of_lookup typeLine encodingLine encoding⟩
  · rintro (⟨typeUnbroken, encodingUnbroken⟩ | lost | lost)
    · exact verdictsHold_of_unbroken typeUnbroken encodingUnbroken typeLine encodingLine truthful
    · intro code response understood
      obtain ⟨_, _, _, _, type⟩ := understandBytes_ok understood
      cases ((lookup_type_eq_none_iff typeLine encodingLine).mpr lost).symm.trans type
    · intro code response understood
      obtain ⟨_, _, _, encoding, _⟩ := understandBytes_ok understood
      cases ((lookup_encoding_eq_none_iff typeLine encodingLine).mpr lost).symm.trans encoding

end Forgery

/-- **When a server can forge the verdicts of a capture.** Take a head that was accepted and the
metadata written for it and for a body. What is read back tells the truth exactly when neither the
content type nor the content coding holds a CR or a tab, or when these breaks lose one of the two
fields altogether. -/
theorem metadata_verdicts_iff (connection : Connection) (fields : ResponseHead) (bodyPrefix : Bytes)
    (rest : List Chunk) (body metadata path : Bytes) (file : MetadataFile) (bodyFile : Option Bytes)
    (accepted : readResponseHead connection = .accepted fields bodyPrefix rest)
    (readBack : bodyFile = some body ∨ bodyFile = none)
    (written : writeResponseMetadata (some path) file fields body.length bodyFile =
      (true, some metadata)) :
    VerdictsHold fields metadata body ↔ ForgesNothing fields := by
  obtain ⟨used, head, _, _, isHead, parsed, _⟩ := readHeadLoop_accepted accepted
  rw [(writeResponseMetadata_eq written).2]
  refine verdictsHold_iff isHead parsed fun valid => ?_
  rcases readBack with rfl | rfl
  · exact wellFormed_of_validUtf8Bytes (Option.some.inj (of_decide_eq_true valid))
  · cases of_decide_eq_true valid

/-- A response whose content type holds a lone CR and a row of its own. -/
def forgingResponse : Connection :=
  ⟨[⟨ascii "HTTP/1.0 200 OK\r\nContent-Type: a\rutf8\tvalid\r\n\r\n", by decide, by decide⟩],
    .closed⟩

/-- The metadata of that response, with the verdict on a body that is not UTF-8. -/
def forgedMetadata : Bytes :=
  ascii "http_status\t200\ncontent_type\ta\rutf8\tvalid\ncontent_encoding\tidentity\n" ++
    ascii "declared_length\t-1\nreceived_length\t1\nutf8\tinvalid\n"

theorem forgingResponse_forges :
    ∃ fields bodyPrefix rest,
      readResponseHead forgingResponse = .accepted fields bodyPrefix rest ∧
        writeResponseMetadata (some (ascii "m")) ⟨true, true, true⟩ fields 1 (some [0xff]) =
          (true, some forgedMetadata) ∧
        understandBytes 0 forgedMetadata [0xff] =
          .ok ⟨200, [0xff], ascii "identity", ascii "a", true⟩ ∧
        ¬ WellFormedUtf8 [0xff] ∧ shownType fields ≠ ascii "a" ∧
        ¬ VerdictsHold fields forgedMetadata [0xff] := by
  have understood : understandBytes 0 forgedMetadata [0xff] =
      .ok ⟨200, [0xff], ascii "identity", ascii "a", true⟩ := by decide +kernel
  have notUtf8 : ¬ WellFormedUtf8 [0xff] := fun wellFormed =>
    absurd (validUtf8Bytes_iff.mpr wellFormed) (by decide)
  refine ⟨_, _, _, rfl, by decide +kernel, understood, notUtf8, by decide, fun holds => ?_⟩
  exact notUtf8 ((holds 0 _ understood).1 rfl)

/-- A head whose content type is one word. -/
def plainHead : Bytes := ascii "HTTP/1.0 200 OK\r\nContent-Type: text/html\r\n\r\n"

/-- A response with that head. -/
def plainResponse : Connection := ⟨[⟨plainHead, by decide, by decide⟩], .closed⟩

/-- What is kept of its head. -/
def plainFields : ResponseHead := (parseResponseHead plainHead).get (by decide)

/-- The metadata of that response, with the verdict on a body of two letters. -/
def plainMetadata : Bytes :=
  ascii "http_status\t200\ncontent_type\ttext/html\ncontent_encoding\tidentity\n" ++
    ascii "declared_length\t-1\nreceived_length\t2\nutf8\tvalid\n"

theorem plainResponse_accepted :
    readResponseHead plainResponse = .accepted plainFields [] [] := by
  decide +kernel

theorem plainMetadata_written :
    writeResponseMetadata (some (ascii "m")) ⟨true, true, true⟩ plainFields (ascii "hi").length
      (some (ascii "hi")) = (true, some plainMetadata) := by
  decide +kernel

theorem metadata_verdicts_iff_plain :
    readResponseHead plainResponse = .accepted plainFields [] [] ∧
      writeResponseMetadata (some (ascii "m")) ⟨true, true, true⟩ plainFields
          (ascii "hi").length (some (ascii "hi")) = (true, some plainMetadata) ∧
      VerdictsHold plainFields plainMetadata (ascii "hi") := by
  refine ⟨plainResponse_accepted, plainMetadata_written, ?_⟩
  exact (metadata_verdicts_iff plainResponse plainFields [] [] (ascii "hi") plainMetadata
    (ascii "m")
    ⟨true, true, true⟩ (some (ascii "hi")) plainResponse_accepted (Or.inl rfl)
    plainMetadata_written).mpr (Or.inl ⟨by decide, by decide⟩)

end IcuTransport.Capture
