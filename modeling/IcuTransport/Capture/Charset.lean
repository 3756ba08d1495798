import IcuTransport.Capture.Understanding

/-!
# The charset of a captured text

`responseText` turns a captured response into text, and refuses one whose content coding or charset
it cannot decode. `supportedCharset` embeds the check of the charset: the parameters of the content
type are cut at semicolons, each of them is cut at every equals sign, and the number of pieces
decides what happens.

A parameter of three pieces or more is allowed whatever its name is. So a charset with a second
equals sign in its value is taken for supported, unless another parameter is refused
(`charsets_checked_iff`).
-/

set_option autoImplicit false

namespace IcuTransport.Capture

open Ascii TextScan

/-! ## The code -/

/-- The semicolon. -/
abbrev semicolon : UInt8 := 59

/-- The equals sign. -/
abbrev equalsSign : UInt8 := 61

/-- A space of the Prelude that is one byte: HT, LF, VT, FF, CR and the blank. -/
def isSpace (byte : UInt8) : Bool := byte = space || (9 ≤ byte && byte ≤ 13)

/-- A text without the spaces at its start. The no-break space of the Prelude has two bytes, which
are given in the order in which the text is read. -/
def trimStart (lead trail : UInt8) : Bytes → Bytes
  | first :: second :: rest =>
      if isSpace first then trimStart lead trail (second :: rest)
      else if first = lead ∧ second = trail then trimStart lead trail rest
      else first :: second :: rest
  | [byte] => if isSpace byte then [] else [byte]
  | [] => []

/-- A text without the spaces at its two ends. -/
def trim (text : Bytes) : Bytes :=
  (trimStart 0xa0 0xc2 (trimStart 0xc2 0xa0 text).reverse).reverse

/-- A piece of a parameter as it is compared: trimmed and in lower case. -/
def normal (piece : Bytes) : Bytes := foldCase (trim piece)

/-- The charsets that can be decoded, with and without quotes. -/
def supportedCharsets : List Bytes :=
  [ascii "utf-8", ascii "\"utf-8\"", ascii "us-ascii", ascii "\"us-ascii\""]

/-- The parameters of a content type. -/
def parameters (contentType : Bytes) : List Bytes := (contentType.splitOn semicolon).drop 1

/-- A parameter that does not stand in the way of decoding. -/
def allowed (parameter : Bytes) : Bool :=
  match (parameter.splitOn equalsSign).map normal with
  | [name, value] => if name = ascii "charset" then supportedCharsets.contains value else true
  | [name] => name ≠ ascii "charset"
  | _ => true

/-- The charset of a content type can be decoded. -/
def supportedCharset (contentType : Bytes) : Bool := (parameters contentType).all allowed

/-- A response as text. -/
structure HTTPResponse where
  status : ℕ
  body : Bytes
  deriving DecidableEq, Repr

/-- The text of a captured response, when it can be decoded. -/
def responseText (captured : HTTPBytesResponse) : Except CaptureFailure HTTPResponse :=
  if foldCase captured.encoding ≠ ascii "identity" ∨
    supportedCharset captured.contentType = false then
    .error .unsupportedEncoding
  else if captured.utf8Valid = false then .error .invalidUTF8
  else .ok ⟨captured.status, captured.bodyBytes⟩

/-- The text is refused for its content coding or for its charset. -/
theorem responseText_eq_unsupported_iff {captured : HTTPBytesResponse} :
    responseText captured = .error .unsupportedEncoding ↔
      foldCase captured.encoding ≠ ascii "identity" ∨
        supportedCharset captured.contentType = false := by
  constructor
  · intro refused
    by_contra supported
    rw [responseText, if_neg supported] at refused
    split at refused <;> cases refused
  · intro unsupported
    exact if_pos unsupported

/-! ## What a parameter is -/

theorem mem_trimStart {lead trail byte : UInt8} (inked : isSpace byte = false)
    (notLead : byte ≠ lead)
    (notTrail : byte ≠ trail) {text : Bytes} (member : byte ∈ text) :
    byte ∈ trimStart lead trail text := by
  fun_induction trimStart lead trail text with
  | case1 first second rest blank ih =>
      refine ih ?_
      rcases List.mem_cons.mp member with rfl | later
      · rw [inked] at blank
        cases blank
      · exact later
  | case2 first second rest _ pair ih =>
      refine ih ?_
      rcases List.mem_cons.mp member with rfl | later
      · exact absurd pair.1 notLead
      · rcases List.mem_cons.mp later with rfl | later
        · exact absurd pair.2 notTrail
        · exact later
  | case3 => exact member
  | case4 other blank =>
      rw [List.mem_singleton.mp member, blank] at inked
      cases inked
  | case5 => exact member
  | case6 => exact member

/-- A normal piece keeps its equals signs. -/
theorem equalsSign_mem_normal {piece : Bytes} (member : equalsSign ∈ piece) :
    equalsSign ∈ normal piece := by
  rw [normal, mem_foldCase_iff (by decide), trim, List.mem_reverse]
  refine mem_trimStart (by decide) (by decide) (by decide) (List.mem_reverse.mpr ?_)
  exact mem_trimStart (by decide) (by decide) (by decide) member

/-- A parameter with the name of the charset, and its value: all that follows its first equals
sign. -/
def DeclaresCharset (parameter value : Bytes) : Prop :=
  ∃ name, parameter = name ++ equalsSign :: value ∧ equalsSign ∉ name ∧
    normal name = ascii "charset"

/-- A parameter that the check refuses: the bare word, or a charset whose value has no equals sign
and is not supported. -/
def RefusedParameter (parameter : Bytes) : Prop :=
  normal parameter = ascii "charset" ∨
    ∃ value, DeclaresCharset parameter value ∧ equalsSign ∉ value ∧
      normal value ∉ supportedCharsets

theorem allowed_of_bare {parameter : Bytes} (bare : equalsSign ∉ parameter) :
    allowed parameter = decide (normal parameter ≠ ascii "charset") := by
  rw [allowed, List.splitOn_eq_singleton bare, List.map_singleton]

theorem allowed_of_single {name value : Bytes} (noSign : equalsSign ∉ name)
    (single : equalsSign ∉ value) :
    allowed (name ++ equalsSign :: value) =
      if normal name = ascii "charset" then supportedCharsets.contains (normal value)
        else true := by
  rw [allowed, List.splitOn_append_cons_self, List.splitOn_eq_singleton noSign,
    List.splitOn_eq_singleton single]
  rfl

/-- A second equals sign makes any parameter pass. -/
theorem allowed_of_more {name value : Bytes} (noSign : equalsSign ∉ name)
    (more : equalsSign ∈ value) : allowed (name ++ equalsSign :: value) = true := by
  obtain ⟨second, others, rfl, noSign'⟩ := List.eq_append_cons_of_mem more
  rw [allowed, List.splitOn_append_cons_self, List.splitOn_append_cons_self,
    List.splitOn_eq_singleton noSign, List.splitOn_eq_singleton noSign']
  cases pieces : others.splitOn equalsSign with
  | nil => exact absurd pieces (List.splitOn_ne_nil _ _)
  | cons piece rest => rfl

/-- The name of a charset is what stands before the first equals sign. -/
theorem declaresCharset_iff {name value other : Bytes} (noSign : equalsSign ∉ name) :
    DeclaresCharset (name ++ equalsSign :: value) other ↔
      other = value ∧ normal name = ascii "charset" := by
  constructor
  · rintro ⟨name', split, noSign', named⟩
    have cut := splitFirst_append_cons noSign value
    rw [split, splitFirst_append_cons noSign'] at cut
    obtain ⟨rfl, rfl⟩ := Prod.mk.inj (Option.some.inj cut)
    exact ⟨rfl, named⟩
  · rintro ⟨rfl, named⟩
    exact ⟨name, rfl, noSign, named⟩

/-- **What the check refuses.** -/
theorem allowed_eq_false_iff {parameter : Bytes} :
    allowed parameter = false ↔ RefusedParameter parameter := by
  by_cases bare : equalsSign ∈ parameter
  · obtain ⟨name, value, rfl, noSign⟩ := List.eq_append_cons_of_mem bare
    have notWord : normal (name ++ equalsSign :: value) ≠ ascii "charset" := by
      intro same
      exact absurd (equalsSign_mem_normal bare) (same ▸ by decide)
    simp only [RefusedParameter, notWord, false_or, declaresCharset_iff noSign]
    by_cases more : equalsSign ∈ value
    · rw [allowed_of_more noSign more]
      constructor
      · intro refused
        cases refused
      · rintro ⟨_, ⟨rfl, _⟩, single, _⟩
        exact absurd more single
    · rw [allowed_of_single noSign more]
      constructor
      · intro refused
        split at refused
        · rename_i named
          refine ⟨value, ⟨rfl, named⟩, more, fun supported => ?_⟩
          rw [List.contains_iff_mem.mpr supported] at refused
          cases refused
        · cases refused
      · rintro ⟨_, ⟨rfl, named⟩, _, unsupported⟩
        rw [if_pos named]
        exact Bool.of_not_eq_true fun held => unsupported (List.contains_iff_mem.mp held)
  · rw [allowed_of_bare bare, decide_eq_false_iff_not, not_not]
    constructor
    · exact Or.inl
    · rintro (word | ⟨value, ⟨name, rfl, _⟩, _⟩)
      · exact word
      · exact absurd (by simp) bare

/-! ## What the check misses -/

/-- A content type that is taken for supported declares only charsets that are. -/
def CharsetsChecked (contentType : Bytes) : Prop :=
  supportedCharset contentType = true → ∀ parameter ∈ parameters contentType, ∀ value,
    DeclaresCharset parameter value → normal value ∈ supportedCharsets

theorem supportedCharset_eq_true_iff {contentType : Bytes} :
    supportedCharset contentType = true ↔
      ∀ parameter ∈ parameters contentType, ¬ RefusedParameter parameter := by
  rw [supportedCharset, List.all_eq_true]
  simp only [← allowed_eq_false_iff, Bool.not_eq_false]

/-- No supported charset has an equals sign. -/
theorem equalsSign_not_mem_of_supported {value : Bytes}
    (supported : normal value ∈ supportedCharsets) :
    equalsSign ∉ value := by
  intro member
  have kept := equalsSign_mem_normal member
  have plain : (supportedCharsets.all fun charset => !charset.contains equalsSign) = true :=
    by decide
  have clean := List.all_eq_true.mp plain _ supported
  rw [List.contains_iff_mem.mpr kept] at clean
  cases clean

/-- **When an unsupported charset is refused.** A content type that is taken for supported declares
only supported charsets exactly when no value of a charset holds another equals sign, or when some
parameter is refused anyway: the bare word, or a charset whose value has no equals sign and is not
supported. -/
theorem charsets_checked_iff (contentType : Bytes) :
    CharsetsChecked contentType ↔
      (∀ parameter ∈ parameters contentType, ∀ value, DeclaresCharset parameter value →
        equalsSign ∉ value) ∨
      ∃ parameter ∈ parameters contentType, RefusedParameter parameter := by
  constructor
  · intro checked
    by_cases refused : ∃ parameter ∈ parameters contentType, RefusedParameter parameter
    · exact Or.inr refused
    · left
      intro parameter member value declares
      have supported : supportedCharset contentType = true := by
        apply supportedCharset_eq_true_iff.mpr
        intro other within refusal
        exact refused ⟨other, within, refusal⟩
      exact equalsSign_not_mem_of_supported (checked supported parameter member value declares)
  · intro condition supported parameter member value declares
    have passes := supportedCharset_eq_true_iff.mp supported
    rcases condition with single | ⟨other, within, refusal⟩
    · by_contra unsupported
      apply passes parameter member
      exact Or.inr ⟨value, declares, single parameter member value declares, unsupported⟩
    · exact absurd refusal (passes other within)

/-- A content type whose charset ends with an equals sign. -/
def paddedCharset : Bytes := ascii "text/html; charset=koi8-r="

theorem paddedCharset_supported :
    supportedCharset paddedCharset = true ∧
      parameters paddedCharset = [ascii " charset=koi8-r="] ∧
      DeclaresCharset (ascii " charset=koi8-r=") (ascii "koi8-r=") ∧
      normal (ascii "koi8-r=") ∉ supportedCharsets ∧ ¬ CharsetsChecked paddedCharset := by
  have supported : supportedCharset paddedCharset = true := by decide
  have single : parameters paddedCharset = [ascii " charset=koi8-r="] := by decide
  have declares : DeclaresCharset (ascii " charset=koi8-r=") (ascii "koi8-r=") :=
    ⟨ascii " charset", by decide, by decide, by decide⟩
  have unsupported : normal (ascii "koi8-r=") ∉ supportedCharsets := by decide
  refine ⟨supported, single, declares, unsupported, fun checked => unsupported ?_⟩
  exact checked supported _ (single ▸ List.mem_singleton_self _) _ declares

end IcuTransport.Capture
