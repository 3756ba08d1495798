import IcuTransport.Wire.HeaderLines
import IcuTransport.Wire.Segmentation

/-!
# How a body is framed

Two scanners with different rules decide the framing of a body. One counts the lines of a name
wherever they stand; the other copies the value of the first one, and gives up at an empty line or
at a value that does not fit. A head passes only when they agree: no line declares a transfer
coding, and a length is declared nowhere, or on one line that both of them see, by a numeral.
-/

set_option autoImplicit false

namespace IcuTransport.Wire

open Ascii TextScan

/-- No line of the head has the name. -/
def Undeclared (name head : Bytes) : Prop := ∀ line ∈ headerLines head, ¬ Named name line

instance (name head : Bytes) : Decidable (Undeclared name head) :=
  inferInstanceAs (Decidable (∀ line ∈ headerLines head, ¬ Named name line))

/-- One line of the head declares a length. It stands before the first empty line, and its value
has 1 to 31 bytes and is, as a C string, a numeral that fits a `long long`. -/
def DeclaresLength (head : Bytes) (length : ℕ) : Prop :=
  ∃ before line after, headerLines head = before ++ line :: after ∧
    Named (ascii "Content-Length") line ∧
    (∀ other ∈ before ++ after, ¬ Named (ascii "Content-Length") other) ∧
    (∀ earlier ∈ before, dropTrailingCr earlier ≠ []) ∧
    1 ≤ (lineValue line).length ∧ (lineValue line).length ≤ 31 ∧
    IsNumeral (cString (lineValue line)) ∧ numeralValue (cString (lineValue line)) = length ∧
    length ≤ longLongMax

theorem IsHead.terminated {head : Bytes} (isHead : IsHead head) : Terminated head := by
  obtain ⟨before, rfl⟩ := isHead.1
  right
  simp [crlf]

/-! ## Counting the lines of a name -/

theorem headerCount_eq_zero_iff {name head : Bytes} (noColon : colon ∉ name) :
    headerCount head name = 0 ↔ Undeclared name head := by
  rw [headerCount_eq noColon, List.length_eq_zero_iff, List.filter_eq_nil_iff]
  simp [Undeclared]

theorem headerCount_eq_one_iff {name head : Bytes} (noColon : colon ∉ name) :
    headerCount head name = 1 ↔
      ∃ before line after, headerLines head = before ++ line :: after ∧ Named name line ∧
        ∀ other ∈ before ++ after, ¬ Named name other := by
  rw [headerCount_eq noColon, List.length_eq_one_iff]
  constructor
  · rintro ⟨line, single⟩
    obtain ⟨before, after, split, notBefore, named, notAfter⟩ := List.filter_eq_cons_iff.mp single
    refine ⟨before, line, after, split, by simpa using named, ?_⟩
    intro other member
    rcases List.mem_append.mp member with inBefore | inAfter
    · simpa using notBefore other inBefore
    · simpa using List.filter_eq_nil_iff.mp notAfter other inAfter
  · rintro ⟨before, line, after, split, named, others⟩
    refine ⟨line, ?_⟩
    have notBefore : before.filter (Named name ·) = [] :=
      List.filter_eq_nil_iff.mpr fun other member => by
        simpa using others other (List.mem_append_left _ member)
    have notAfter : after.filter (Named name ·) = [] :=
      List.filter_eq_nil_iff.mpr fun other member => by
        simpa using others other (List.mem_append_right _ member)
    rw [split, List.filter_append, notBefore, List.filter_cons_of_pos (by simpa using named),
      notAfter, List.nil_append]

/-! ## The declared length -/

/-- A line of a name is not empty. -/
theorem Named.dropTrailingCr_ne_nil {name line : Bytes} (named : Named name line) :
    dropTrailingCr line ≠ [] := by
  obtain ⟨written, value, found, _⟩ := named_iff.mp named
  rw [(splitFirst_eq_some_iff.mp found).1, dropTrailingCr_append_cons (by decide)]
  simp

/-- **What is declared**: the value of the first line of the name, before any empty line. -/
theorem declaredLength_eq_some_iff {head : Bytes} (terminated : Terminated head) {length : ℕ} :
    declaredLength head = some length ↔
      ∃ before line after, headerLines head = before ++ line :: after ∧
        Named (ascii "Content-Length") line ∧
        (∀ earlier ∈ before,
          dropTrailingCr earlier ≠ [] ∧ ¬ Named (ascii "Content-Length") earlier) ∧
        1 ≤ (lineValue line).length ∧ (lineValue line).length ≤ 31 ∧
        IsNumeral (cString (lineValue line)) ∧ numeralValue (cString (lineValue line)) = length ∧
        length ≤ longLongMax := by
  rw [declaredLength, copyHeaderValue_eq terminated]
  simp only [Option.bind_eq_some_iff, firstValue_eq_some_iff, storeValue_eq_some_iff,
    parseContentLength_eq_some_iff]
  constructor
  · rintro ⟨array, ⟨value, ⟨before, line, after, split, named, rfl, _, earlier⟩, equal, nonempty⟩,
      numeral, number, bound⟩
    have fits := array.fits
    rw [CharArray.text, equal] at numeral number
    rw [equal] at fits
    exact ⟨before, line, after, split, named, earlier, List.length_pos_of_ne_nil nonempty,
      by omega, numeral, number, bound⟩
  · rintro ⟨before, line, after, split, named, earlier, positive, small, numeral, number, bound⟩
    refine ⟨⟨lineValue line, by omega⟩, ⟨lineValue line, ⟨before, line, after, split, named, rfl,
      named.dropTrailingCr_ne_nil, earlier⟩, rfl, List.ne_nil_of_length_pos positive⟩, ?_⟩
    exact ⟨numeral, number, bound⟩

/-- A declared length is what the copying scanner reads. -/
theorem DeclaresLength.declaredLength {head : Bytes} {length : ℕ}
    (declares : DeclaresLength head length) (terminated : Terminated head) :
    declaredLength head = some length := by
  obtain ⟨before, line, after, split, named, others, filled, value⟩ := declares
  refine (declaredLength_eq_some_iff terminated).mpr ⟨before, line, after, split, named, ?_, value⟩
  exact fun earlier member =>
    ⟨filled earlier member, others earlier (List.mem_append_left _ member)⟩

theorem DeclaresLength.headerCount {head : Bytes} {length : ℕ}
    (declares : DeclaresLength head length) : headerCount head (ascii "Content-Length") = 1 := by
  obtain ⟨before, line, after, split, named, others, _⟩ := declares
  exact (headerCount_eq_one_iff (by decide)).mpr ⟨before, line, after, split, named, others⟩

/-- **Agreement of the scanners**: one line counted and a length copied make a declared length. -/
theorem declaresLength_of_count {head : Bytes} (terminated : Terminated head) {length : ℕ}
    (single : headerCount head (ascii "Content-Length") = 1)
    (read : declaredLength head = some length) : DeclaresLength head length := by
  obtain ⟨before, line, after, split, named, earlier, value⟩ :=
    (declaredLength_eq_some_iff terminated).mp read
  obtain ⟨before', line', after', split', _, others⟩ :=
    (headerCount_eq_one_iff (by decide)).mp single
  have same : before = before' ∧ line = line' ∧ after = after' := by
    have cut : before ++ line :: after = before' ++ line' :: after' := split.symm.trans split'
    rcases List.append_eq_append_iff.mp cut with ⟨gap, rfl, tail⟩ | ⟨gap, rfl, tail⟩
    · cases gap with
      | nil => simpa using tail
      | cons head gap =>
          obtain ⟨rfl, _⟩ := List.cons.inj tail
          exact absurd named (others line (by simp))
    · cases gap with
      | nil => simpa [eq_comm] using tail
      | cons head gap =>
          obtain ⟨rfl, rfl⟩ := List.cons.inj tail
          exact absurd named (others line (by simp))
  obtain ⟨rfl, rfl, rfl⟩ := same
  exact ⟨before, line, after, split, named, others, fun candidate member =>
    (earlier candidate member).1, value⟩

theorem declaredLength_of_undeclared {head : Bytes} (terminated : Terminated head)
    (undeclared : Undeclared (ascii "Content-Length") head) : declaredLength head = none := by
  cases read : declaredLength head with
  | none => rfl
  | some length =>
      obtain ⟨before, line, after, split, named, _⟩ :=
        (declaredLength_eq_some_iff terminated).mp read
      exact absurd named (undeclared line (by simp [split]))

/-! ## The verdict -/

/-- **The framing of a complete head is accepted exactly when it is unambiguous.** -/
theorem framingRefused_eq_false_iff {head : Bytes} (terminated : Terminated head) :
    framingRefused head = false ↔
      Undeclared (ascii "Transfer-Encoding") head ∧
        (Undeclared (ascii "Content-Length") head ∨ ∃ length, DeclaresLength head length) := by
  have noCoding : headerCount head (ascii "Transfer-Encoding") = 0 ↔
      Undeclared (ascii "Transfer-Encoding") head := headerCount_eq_zero_iff (by decide)
  have noLength : headerCount head (ascii "Content-Length") = 0 ↔
      Undeclared (ascii "Content-Length") head := headerCount_eq_zero_iff (by decide)
  rw [← noCoding, ← noLength]
  simp only [framingRefused, Bool.or_eq_false_iff, Bool.and_eq_false_iff, decide_eq_false_iff_not,
    ne_eq, not_not]
  constructor
  · rintro ⟨⟨atMost, readable⟩, coding⟩
    refine ⟨coding, ?_⟩
    by_cases single : headerCount head (ascii "Content-Length") = 1
    · right
      cases read : declaredLength head with
      | none => simp [single, read] at readable
      | some length => exact ⟨length, declaresLength_of_count terminated single read⟩
    · left
      omega
  · rintro ⟨coding, none | ⟨length, declares⟩⟩
    · exact ⟨⟨by omega, Or.inl (by omega)⟩, coding⟩
    · have count := declares.headerCount
      have read := declares.declaredLength terminated
      exact ⟨⟨by omega, Or.inr (by simp [read])⟩, coding⟩

/-- **Body framing fails closed.** The framing of an accepted head is valid exactly when no line
declares a transfer coding and a length is declared nowhere or once, readably and before the first
empty line. The length kept is the declared one, and none when no line declares one. -/
theorem accepted_framing_iff (connection : Connection) (head body : Bytes) (fields : ResponseHead)
    (bodyPrefix : Bytes) (rest : List Chunk) (isHead : IsHead head)
    (sent : delivered connection.chunks = head ++ body)
    (accepted : readResponseHead connection = .accepted fields bodyPrefix rest) :
    (fields.invalidFraming = false ↔
      Undeclared (ascii "Transfer-Encoding") head ∧
        (Undeclared (ascii "Content-Length") head ∨ ∃ length, DeclaresLength head length)) ∧
      (Undeclared (ascii "Content-Length") head → fields.contentLength = none) ∧
      ∀ length, DeclaresLength head length → fields.contentLength = some length := by
  obtain ⟨parsed, _⟩ := readResponseHead_accepted isHead sent accepted
  obtain ⟨_, _, _, length, framing, _⟩ := parseResponseHead_fields parsed
  rw [framing, length]
  refine ⟨framingRefused_eq_false_iff isHead.terminated, ?_, ?_⟩
  · exact declaredLength_of_undeclared isHead.terminated
  · exact fun _ declares => declares.declaredLength isHead.terminated

/-- A response that declares the length of its two bytes. -/
def lengthTwoResponse : Connection :=
  ⟨[⟨ascii "HTTP/1.0 200 OK\r\nContent-Length: 2\r\n\r\nhi", by decide, by decide⟩], .closed⟩

theorem accepted_framing_iff_length_two :
    ∃ fields bodyPrefix rest,
      readResponseHead lengthTwoResponse = .accepted fields bodyPrefix rest ∧
        fields.contentLength = some 2 := by
  refine ⟨_, _, _, rfl, ?_⟩
  refine (accepted_framing_iff lengthTwoResponse
    (ascii "HTTP/1.0 200 OK\r\nContent-Length: 2\r\n\r\n") (ascii "hi") _ _ _ (by decide)
    (by decide) rfl).2.2 2 ?_
  exact ⟨[], ascii "Content-Length: 2\r", [[cr]], by decide, by decide, by decide, by decide,
    by decide, by decide, by decide, by decide, by decide⟩

end IcuTransport.Wire
