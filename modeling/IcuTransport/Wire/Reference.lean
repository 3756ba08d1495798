import IcuTransport.Wire.HeaderLines

/-!
# What a header value is

`copyHeaderValue` finds a header value with a cursor and four moving ends. This module says what the
value is, without a cursor: the lines after the first are what stands between the LFs, without one
CR at their ends; the ones before the first empty line count; the first of them that has the name
gives the value, which is all that follows its first colon, without blanks around it.

The scanner gives exactly this value when it is not empty and fits, for every text, whether or not
its last line ends (`copy_header_value_reference`). A first line of the name whose value is empty or
too long ends the search.
-/

set_option autoImplicit false

namespace IcuTransport.Wire

open Ascii TextScan

/-! ## The reference -/

/-- The lines of a text after its first, each without one CR at its end. -/
def referenceLines (head : Bytes) : List Bytes :=
  match splitFirst lf head with
  | none => []
  | some (_, rest) => (rest.splitOn lf).map dropTrailingCr

/-- All that follows the first colon of a line, without blanks around it. -/
def referenceLineValue (line : Bytes) : Bytes :=
  match splitFirst colon line with
  | none => []
  | some (_, value) => trimBlanks value

/-- The first of the lines before an empty one that has the name. -/
def referenceLine (name : Bytes) (lines : List Bytes) : Option Bytes :=
  (lines.takeWhile (· ≠ [])).find? (Named name ·)

/-- The value of a header name. -/
def referenceValue (head name : Bytes) : Option Bytes :=
  (referenceLine name (referenceLines head)).map referenceLineValue

/-! ## The scanner -/

section Lines

variable {name : Bytes}

theorem named_dropTrailingCr (line : Bytes) :
    Named name (dropTrailingCr line) ↔ Named name line := by
  have same : lineName (dropTrailingCr line) = lineName line := by
    rw [lineName, splitFirst_dropTrailingCr, Option.map_map]
    rfl
  rw [Named, same, Named]

theorem referenceLineValue_dropTrailingCr (line : Bytes) :
    referenceLineValue (dropTrailingCr line) = lineValue line := by
  rw [referenceLineValue, splitFirst_dropTrailingCr, lineValue]
  cases splitFirst colon line with
  | none => rfl
  | some parts => rfl

/-- The search of the scanner is the one of the reference, line by line. -/
theorem firstValue_eq_referenceLine (lines : List Bytes) :
    firstValue name lines =
      (referenceLine name (lines.map dropTrailingCr)).map referenceLineValue := by
  induction lines with
  | nil => rfl
  | cons line rest ih =>
      rw [firstValue, referenceLine, List.map_cons]
      by_cases empty : dropTrailingCr line = []
      · rw [if_pos empty, List.takeWhile_cons_of_neg (by simpa using empty)]
        rfl
      · rw [if_neg empty, List.takeWhile_cons_of_pos (by simpa using empty), List.find?_cons]
        by_cases named : Named name line
        · rw [if_pos named]
          simp only [named_dropTrailingCr, named, decide_true, Option.map_some,
            referenceLineValue_dropTrailingCr]
        · rw [if_neg named]
          simp only [named_dropTrailingCr, named, decide_false]
          exact ih

/-- An empty line after the last one changes nothing. -/
theorem referenceLine_append_empty (lines : List Bytes) :
    referenceLine name (lines ++ [[]]) = referenceLine name lines := by
  rw [referenceLine, takeWhile_concat (by decide), referenceLine]

end Lines

/-- **The scanner copies the value of the reference**, unless it is empty or does not fit. -/
theorem copyHeaderValue_eq_reference (head name : Bytes) (capacity : ℕ) :
    copyHeaderValue head name capacity = (referenceValue head name).bind (storeValue capacity) := by
  unfold copyHeaderValue referenceValue referenceLines
  cases splitFirst lf head with
  | none => rfl
  | some parts =>
      obtain ⟨line, rest⟩ := parts
      simp only
      rw [copyHeaderLoop_eq le_rfl, firstValue_eq_referenceLine]
      rcases splitOn_eq_separated lf rest with same | same
      · rw [same]
      · rw [same, List.map_append]
        exact congrArg (fun line => (line.map referenceLineValue).bind (storeValue capacity))
          (referenceLine_append_empty _).symm

/-- A line before which no line is empty or has the name is the one that is found. -/
theorem referenceLine_of_first {name line : Bytes} {before after : List Bytes}
    (earlier : ∀ other ∈ before, other ≠ [] ∧ ¬ Named name other) (filled : line ≠ [])
    (named : Named name line) : referenceLine name (before ++ line :: after) = some line := by
  induction before with
  | nil =>
      rw [referenceLine, List.nil_append, List.takeWhile_cons_of_pos (by simpa using filled),
        List.find?_cons_of_pos (by simpa using named)]
  | cons first before ih =>
      obtain ⟨⟨filledFirst, other⟩, rest⟩ := List.forall_mem_cons.mp earlier
      rw [referenceLine, List.cons_append, List.takeWhile_cons_of_pos (by simpa using filledFirst),
        List.find?_cons_of_neg (by simpa using other)]
      exact ih rest

/-! ## Counting -/

/-- A value that is copied stands in a line that is counted. -/
theorem one_le_headerCount {head name : Bytes} {capacity : ℕ} {array : CharArray capacity}
    (terminated : Terminated head) (noColon : colon ∉ name)
    (copied : copyHeaderValue head name capacity = some array) : 1 ≤ headerCount head name := by
  rw [copyHeaderValue_eq terminated] at copied
  obtain ⟨value, first, _⟩ := Option.bind_eq_some_iff.mp copied
  obtain ⟨before, line, after, split, named, _⟩ := firstValue_eq_some_iff.mp first
  have member : line ∈ (headerLines head).filter (Named name ·) := by
    rw [List.mem_filter, split]
    exact ⟨List.mem_append_right before List.mem_cons_self, decide_eq_true named⟩
  rw [headerCount_eq noColon]
  exact List.length_pos_of_mem member

/-- **`copy_header_value` equals its reference.** For every text, every name without a colon and
every capacity, the value that is copied is the value of the reference, when it has at least one
byte and fits with its terminator, and otherwise nothing is copied. A first line of the name whose
value is empty or too long ends the search, whatever follows it. In a head that ends with CRLF CRLF
a copied value has a line that `header_count` counts. -/
theorem copy_header_value_reference (head name : Bytes) (capacity : ℕ) (noColon : colon ∉ name) :
    (∀ value, (∃ array, copyHeaderValue head name capacity = some array ∧ array.bytes = value) ↔
      referenceValue head name = some value ∧ 1 ≤ value.length ∧ value.length < capacity) ∧
      (∀ before line after, referenceLines head = before ++ line :: after →
        (∀ other ∈ before, other ≠ [] ∧ ¬ Named name other) → line ≠ [] → Named name line →
        (referenceLineValue line = [] ∨ capacity ≤ (referenceLineValue line).length) →
        copyHeaderValue head name capacity = none) ∧
      ((crlf ++ crlf) <:+ head → ∀ array, copyHeaderValue head name capacity = some array →
        1 ≤ headerCount head name) := by
  refine ⟨?_, ?_, ?_⟩
  · intro value
    rw [copyHeaderValue_eq_reference]
    constructor
    · rintro ⟨array, copied, rfl⟩
      obtain ⟨value, found, stored⟩ := Option.bind_eq_some_iff.mp copied
      obtain ⟨rfl, filled⟩ := storeValue_eq_some_iff.mp stored
      exact ⟨found, List.length_pos_of_ne_nil filled, array.fits⟩
    · rintro ⟨found, filled, fits⟩
      refine ⟨⟨value, fits⟩, ?_, rfl⟩
      rw [found, Option.bind_some]
      exact storeValue_eq_some_iff.mpr ⟨rfl, List.ne_nil_of_length_pos filled⟩
  · intro before line after split earlier filled named unfit
    have found : referenceValue head name = some (referenceLineValue line) := by
      rw [referenceValue, split, referenceLine_of_first earlier filled named, Option.map_some]
    rw [copyHeaderValue_eq_reference, found, Option.bind_some, storeValue]
    split
    · rfl
    · rename_i nonempty
      rw [CharArray.store, dif_neg (Nat.not_lt.mpr (unfit.resolve_left nonempty))]
  · intro ends array copied
    obtain ⟨before, rfl⟩ := ends
    have terminated : Terminated (before ++ (crlf ++ crlf)) := by
      right
      rw [List.getLast?_append]
      rfl
    exact one_le_headerCount terminated noColon copied

/-- A head with two lines of a name, the first one after a line that only looks like it. -/
def twoLocations : Bytes :=
  ascii "HTTP/1.0 302 Found\r\nLocations: x\nlocation:\t/a \r\nLocation: /b\r\n\r\n"

theorem copy_header_value_reference_location :
    referenceValue twoLocations (ascii "Location") = some (ascii "/a") ∧
      (∃ array, copyHeaderValue twoLocations (ascii "Location") 3 = some array ∧
        array.bytes = ascii "/a") ∧
      copyHeaderValue twoLocations (ascii "Location") 2 = none := by
  have value : referenceValue twoLocations (ascii "Location") = some (ascii "/a") := by
    decide +kernel
  obtain ⟨copies, _⟩ := copy_header_value_reference twoLocations (ascii "Location") 3 (by decide)
  obtain ⟨_, refuses, _⟩ :=
    copy_header_value_reference twoLocations (ascii "Location") 2 (by decide)
  refine ⟨value, (copies _).mpr ⟨value, by decide, by decide⟩, ?_⟩
  refine refuses [ascii "Locations: x"] (ascii "location:\t/a ") [ascii "Location: /b", [], []]
    (by decide +kernel) ?_ (by decide) (by decide) (Or.inr (by decide))
  intro other member
  rw [List.mem_singleton.mp member]
  exact ⟨by decide, by decide⟩

end IcuTransport.Wire
