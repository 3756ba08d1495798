import IcuTransport.Wire.Framing

/-!
# Values read as C strings

The scanners of a head work with lengths, and everything that uses a copied value afterwards works
with C strings. The two agree on a value without a NUL. A NUL cuts what is used of a value, and
nothing refuses such a value: it can hide the end of a declared length or of a content coding.

The values of a head are used whole exactly when no copied value holds a NUL. Such values are what
their lines say to the end (`text_of_nulFree`).
-/

set_option autoImplicit false

namespace IcuTransport.Wire

open Ascii TextScan

/-! ## The values of a head -/

/-- The value of the first line of a name, wherever that stands. -/
def namedValue (name head : Bytes) : Option Bytes :=
  ((headerLines head).find? (Named name ·)).map lineValue

/-- The names the program looks up, each with the size of the buffer for its value. -/
def scannedNames : List (Bytes × ℕ) :=
  [(ascii "Location", maxLocationBytes), (ascii "Content-Length", 32), (ascii "Content-Type", 256),
    (ascii "Content-Encoding", 64)]

theorem namedValue_eq_none_iff {name head : Bytes} :
    namedValue name head = none ↔ Undeclared name head := by
  rw [namedValue, Option.map_eq_none_iff, List.find?_eq_none]
  simp only [decide_eq_true_eq, Undeclared]

theorem namedValue_of_split {name head line : Bytes} {before after : List Bytes}
    (split : headerLines head = before ++ line :: after) (named : Named name line)
    (others : ∀ earlier ∈ before, ¬ Named name earlier) :
    namedValue name head = some (lineValue line) := by
  have found : (headerLines head).find? (Named name ·) = some line := by
    rw [List.find?_eq_some_iff_append]
    refine ⟨by simpa using named, before, after, split, ?_⟩
    intro earlier member
    simpa using others earlier member
  rw [namedValue, found, Option.map_some]

/-- A value before any empty line is the value of the first line of the name. -/
theorem namedValue_of_firstValue {name head value : Bytes}
    (first : firstValue name (headerLines head) = some value) :
    namedValue name head = some value := by
  obtain ⟨before, line, after, split, named, rfl, _, earlier⟩ := firstValue_eq_some_iff.mp first
  exact namedValue_of_split split named fun other member => (earlier other member).2

/-- **What a copied value is**: the value of the first line of the name, which fits and is not
empty. -/
theorem copyHeaderValue_eq_some_iff {head name : Bytes} {capacity : ℕ} {array : CharArray capacity}
    (terminated : Terminated head) :
    copyHeaderValue head name capacity = some array ↔
      firstValue name (headerLines head) = some array.bytes ∧ array.bytes ≠ [] := by
  rw [copyHeaderValue_eq terminated, Option.bind_eq_some_iff]
  constructor
  · rintro ⟨value, first, stored⟩
    obtain ⟨rfl, filled⟩ := storeValue_eq_some_iff.mp stored
    exact ⟨first, filled⟩
  · rintro ⟨first, filled⟩
    exact ⟨array.bytes, first, storeValue_eq_some_iff.mpr ⟨rfl, filled⟩⟩

/-- No value that is copied from the head holds a NUL. -/
def NulFree (head : Bytes) : Prop :=
  ∀ name capacity, (name, capacity) ∈ scannedNames →
    ∀ value, firstValue name (headerLines head) = some value → value.length < capacity → nul ∉ value

/-- The values of a head are used whole. Whatever is copied is read as the value of the first line
of its name; a length kept of a head with valid framing comes from a value of digits; and a coding
kept as `identity` comes from no line or from that value. -/
def WholeValues (head : Bytes) : Prop :=
  (∀ name capacity, (name, capacity) ∈ scannedNames → ∀ array : CharArray capacity,
      copyHeaderValue head name capacity = some array → namedValue name head = some array.text) ∧
    ∀ (connection : Connection) (body : Bytes) (fields : ResponseHead) (bodyPrefix : Bytes)
      (rest : List Chunk), delivered connection.chunks = head ++ body →
      readResponseHead connection = .accepted fields bodyPrefix rest →
        (fields.invalidFraming = false → ∀ length, fields.contentLength = some length →
          ∃ value, namedValue (ascii "Content-Length") head = some value ∧ IsNumeral value) ∧
        (fields.contentEncoding.text = ascii "identity" →
          namedValue (ascii "Content-Encoding") head = none ∨
            namedValue (ascii "Content-Encoding") head = some (ascii "identity"))

/-! ## When values are used whole -/

section Whole

variable {head : Bytes}

theorem text_of_nulFree (terminated : Terminated head) (nulFree : NulFree head) {name : Bytes}
    {capacity : ℕ} (scanned : (name, capacity) ∈ scannedNames) {array : CharArray capacity}
    (copied : copyHeaderValue head name capacity = some array) :
    namedValue name head = some array.text := by
  obtain ⟨first, _⟩ := (copyHeaderValue_eq_some_iff terminated).mp copied
  have absent : nul ∉ array.bytes := nulFree name capacity scanned array.bytes first array.fits
  rw [CharArray.text, cString_eq_self_iff.mpr absent]
  exact namedValue_of_firstValue first

/-- A declared length is a numeral to the end. -/
theorem DeclaresLength.isNumeral {length : ℕ} (declares : DeclaresLength head length)
    (nulFree : NulFree head) :
    ∃ value, namedValue (ascii "Content-Length") head = some value ∧ IsNumeral value := by
  obtain ⟨before, line, after, split, named, others, filled, _, small, numeral, _⟩ := declares
  have first : firstValue (ascii "Content-Length") (headerLines head) = some (lineValue line) := by
    refine firstValue_eq_some_iff.mpr
      ⟨before, line, after, split, named, rfl, named.dropTrailingCr_ne_nil, ?_⟩
    intro earlier member
    exact ⟨filled earlier member, others earlier (List.mem_append_left after member)⟩
  have absent : nul ∉ lineValue line :=
    nulFree _ 32 (by simp [scannedNames]) (lineValue line) first (by omega)
  rw [cString_eq_self_iff.mpr absent] at numeral
  exact ⟨lineValue line, namedValue_of_firstValue first, numeral⟩

/-- A coding shown as `identity` is declared so, or not at all. -/
theorem declaredEncoding_identity (terminated : Terminated head) (nulFree : NulFree head)
    (identity : (declaredEncoding head).text = ascii "identity") :
    namedValue (ascii "Content-Encoding") head = none ∨
      namedValue (ascii "Content-Encoding") head = some (ascii "identity") := by
  unfold declaredEncoding at identity
  dsimp only at identity
  split at identity
  · exact absurd identity (by decide)
  · rename_i single
    rw [not_or, not_and] at single
    cases copied : copyHeaderValue head (ascii "Content-Encoding") 64 with
    | none =>
        left
        have none : headerCount head (ascii "Content-Encoding") = 0 := by
          have several := single.1
          have notOne : headerCount head (ascii "Content-Encoding") ≠ 1 := fun one =>
            single.2 one copied
          omega
        exact namedValue_eq_none_iff.mpr ((headerCount_eq_zero_iff (by decide)).mp none)
    | some array =>
        right
        rw [copied, Option.getD_some] at identity
        rw [← identity]
        exact text_of_nulFree terminated nulFree (by simp [scannedNames]) copied

/-- **Values are used whole exactly when no copied value holds a NUL.** -/
theorem wholeValues_iff (isHead : IsHead head) : WholeValues head ↔ NulFree head := by
  constructor
  · rintro ⟨whole, _⟩ name capacity scanned value first fits
    by_cases empty : value = []
    · rw [empty]
      exact List.not_mem_nil
    · have copied : copyHeaderValue head name capacity = some ⟨value, fits⟩ :=
        (copyHeaderValue_eq_some_iff isHead.terminated).mpr ⟨first, empty⟩
      have same := whole name capacity scanned ⟨value, fits⟩ copied
      rw [namedValue_of_firstValue first] at same
      exact cString_eq_self_iff.mp (Option.some.inj same).symm
  · intro nulFree
    refine ⟨fun name capacity scanned array copied =>
      text_of_nulFree isHead.terminated nulFree scanned copied, ?_⟩
    intro connection body fields bodyPrefix rest sent accepted
    obtain ⟨parsed, _⟩ := readResponseHead_accepted isHead sent accepted
    obtain ⟨_, _, _, length, framing, _, encoding⟩ := parseResponseHead_fields parsed
    constructor
    · intro valid number declared
      rw [framing] at valid
      obtain ⟨_, undeclared | ⟨number', declares⟩⟩ :=
        (framingRefused_eq_false_iff isHead.terminated).mp valid
      · rw [length, declaredLength_of_undeclared isHead.terminated undeclared] at declared
        cases declared
      · exact declares.isNumeral nulFree
    · intro identity
      rw [encoding] at identity
      exact declaredEncoding_identity isHead.terminated nulFree identity

end Whole

/-- A head with a declared length and a content coding. -/
def describedHead : Bytes :=
  ascii "HTTP/1.0 200 OK\r\nContent-Length: 2\r\nContent-Encoding: identity\r\n\r\n"

theorem wholeValues_iff_described : NulFree describedHead ∧ WholeValues describedHead := by
  have nulFree : NulFree describedHead := by
    intro name capacity scanned value first _
    simp only [scannedNames, List.mem_cons, Prod.mk.injEq, List.not_mem_nil, or_false] at scanned
    rcases scanned with ⟨rfl, _⟩ | ⟨rfl, _⟩ | ⟨rfl, _⟩ | ⟨rfl, _⟩
    · cases first
    · obtain rfl : ascii "2" = value := Option.some.inj first
      decide
    · cases first
    · obtain rfl : ascii "identity" = value := Option.some.inj first
      decide
  exact ⟨nulFree, (wholeValues_iff (by decide)).mpr nulFree⟩

/-- A head whose declared length and content coding go on after a NUL. -/
def hidingHead : Bytes :=
  ascii "HTTP/1.0 200 OK\r\nContent-Length: 2\x00x\r\nContent-Encoding: identity\x00x\r\n\r\n"

theorem hidingHead_not_whole :
    IsHead hidingHead ∧
      namedValue (ascii "Content-Length") hidingHead = some (ascii "2\x00x") ∧
      namedValue (ascii "Content-Encoding") hidingHead = some (ascii "identity\x00x") ∧
      (∃ fields bodyPrefix rest,
        readResponseHead ⟨[⟨hidingHead, by decide, by decide⟩], .closed⟩ =
            .accepted fields bodyPrefix rest ∧
          fields.invalidFraming = false ∧ fields.contentLength = some 2 ∧
          fields.contentEncoding.text = ascii "identity") ∧
      ¬ WholeValues hidingHead := by
  refine ⟨by decide +kernel, by decide, by decide,
    ⟨_, _, _, rfl, by decide, by decide, by decide⟩, ?_⟩
  intro whole
  have length := whole.1 (ascii "Content-Length") 32 (by simp [scannedNames])
    ⟨ascii "2\x00x", by decide⟩ (by decide)
  exact absurd length (by decide)

end IcuTransport.Wire
