import IcuTransport.Library.Ascii

/-!
# The UTF-8 check of a captured body

`validUtf8Bytes` embeds the check the program runs over a captured body. What it accepts is the
concatenation of the encodings of some list of characters, and every such concatenation is accepted
(`validUtf8Bytes_iff`).
-/

set_option autoImplicit false

namespace IcuTransport.Capture

open Ascii

/-! ## The code -/

/-- A byte that continues a character. -/
def continuation (byte : UInt8) : Bool := 0x80 ≤ byte && byte ≤ 0xbf

/-- The second bytes that may follow the first byte of a character of three bytes. -/
def secondOfThree (first second : UInt8) : Bool :=
  if first = 0xe0 then 0xa0 ≤ second && second ≤ 0xbf
  else if first = 0xed then 0x80 ≤ second && second ≤ 0x9f
  else continuation second

/-- The second bytes that may follow the first byte of a character of four bytes. -/
def secondOfFour (first second : UInt8) : Bool :=
  if first = 0xf0 then 0x90 ≤ second && second ≤ 0xbf
  else if first = 0xf4 then 0x80 ≤ second && second ≤ 0x8f
  else continuation second

/-- The bytes are UTF-8. -/
def validUtf8Bytes : Bytes → Bool
  | [] => true
  | first :: rest =>
      if first ≤ 0x7f then validUtf8Bytes rest
      else if 0xc2 ≤ first ∧ first ≤ 0xdf then
        match rest with
        | second :: rest => if continuation second then validUtf8Bytes rest else false
        | [] => false
      else if 0xe0 ≤ first ∧ first ≤ 0xef then
        match rest with
        | second :: third :: rest =>
            if continuation third && secondOfThree first second then validUtf8Bytes rest else false
        | _ => false
      else if 0xf0 ≤ first ∧ first ≤ 0xf4 then
        match rest with
        | second :: third :: fourth :: rest =>
            if continuation third && continuation fourth && secondOfFour first second then
              validUtf8Bytes rest
            else false
        | _ => false
      else false

/-! ## What it accepts -/

/-- The bytes are the encodings of some characters. -/
def WellFormedUtf8 (bytes : Bytes) : Prop :=
  ∃ characters : List Char, bytes = characters.flatMap String.utf8EncodeChar

theorem WellFormedUtf8.append {first second : Bytes} (left : WellFormedUtf8 first)
    (right : WellFormedUtf8 second) : WellFormedUtf8 (first ++ second) := by
  obtain ⟨characters, rfl⟩ := left
  obtain ⟨others, rfl⟩ := right
  exact ⟨characters ++ others, List.flatMap_append.symm⟩

/-- The encoding of one scalar value is well formed. -/
theorem wellFormedUtf8_of_value {bytes : Bytes} {value : ℕ} (valid : value.isValidChar)
    (encoded : String.utf8EncodeChar (Char.ofNatAux value valid) = bytes) : WellFormedUtf8 bytes :=
  ⟨[Char.ofNatAux value valid], by rw [List.flatMap_singleton, encoded]⟩

theorem continuation_iff {byte : UInt8} :
    continuation byte = true ↔ 0x80 ≤ byte.toNat ∧ byte.toNat ≤ 0xbf := by
  simp [continuation, UInt8.le_iff_toNat_le]

theorem secondOfThree_iff {first second : UInt8} :
    secondOfThree first second = true ↔
      (0x80 ≤ second.toNat ∧ second.toNat ≤ 0xbf) ∧ (first.toNat = 0xe0 → 0xa0 ≤ second.toNat) ∧
        (first.toNat = 0xed → second.toNat ≤ 0x9f) := by
  have isE0 : first = 0xe0 ↔ first.toNat = 0xe0 := UInt8.toNat_inj.symm
  have isEd : first = 0xed ↔ first.toNat = 0xed := UInt8.toNat_inj.symm
  have bounds : (0x80 : UInt8).toNat = 0x80 ∧ (0xbf : UInt8).toNat = 0xbf ∧
      (0xa0 : UInt8).toNat = 0xa0 ∧ (0x9f : UInt8).toNat = 0x9f := by decide
  simp only [secondOfThree, continuation, isE0, isEd, UInt8.le_iff_toNat_le]
  grind

theorem secondOfFour_iff {first second : UInt8} :
    secondOfFour first second = true ↔
      (0x80 ≤ second.toNat ∧ second.toNat ≤ 0xbf) ∧ (first.toNat = 0xf0 → 0x90 ≤ second.toNat) ∧
        (first.toNat = 0xf4 → second.toNat ≤ 0x8f) := by
  have isF0 : first = 0xf0 ↔ first.toNat = 0xf0 := UInt8.toNat_inj.symm
  have isF4 : first = 0xf4 ↔ first.toNat = 0xf4 := UInt8.toNat_inj.symm
  have bounds : (0x80 : UInt8).toNat = 0x80 ∧ (0xbf : UInt8).toNat = 0xbf ∧
      (0x90 : UInt8).toNat = 0x90 ∧ (0x8f : UInt8).toNat = 0x8f := by decide
  simp only [secondOfFour, continuation, isF0, isF4, UInt8.le_iff_toNat_le]
  grind

/-- The ranges of first bytes, as numbers. -/
theorem between_iff {low high byte : UInt8} :
    low ≤ byte ∧ byte ≤ high ↔ low.toNat ≤ byte.toNat ∧ byte.toNat ≤ high.toNat := by
  rw [UInt8.le_iff_toNat_le, UInt8.le_iff_toNat_le]

theorem val_toNat_ofNatAux (value : ℕ) (valid : value.isValidChar) :
    (Char.ofNatAux value valid).val.toNat = value := rfl

theorem eq_ofNat (byte : UInt8) {value : ℕ} (same : value = byte.toNat) :
    UInt8.ofNat value = byte := by
  rw [same, UInt8.ofNat_toNat]

theorem wellFormed_one {first : UInt8} (range : first ≤ 0x7f) : WellFormedUtf8 [first] := by
  have small : first.toNat ≤ 0x7f := UInt8.le_iff_toNat_le.mp range
  refine wellFormedUtf8_of_value (Or.inl (by omega) : first.toNat.isValidChar) ?_
  rw [String.utf8EncodeChar, val_toNat_ofNatAux, if_pos small, eq_ofNat first rfl]

theorem wellFormed_two {first second : UInt8} (range : 0xc2 ≤ first ∧ first ≤ 0xdf)
    (continued : continuation second = true) : WellFormedUtf8 [first, second] := by
  have range : 0xc2 ≤ first.toNat ∧ first.toNat ≤ 0xdf := between_iff.mp range
  have next := continuation_iff.mp continued
  have valid : ((first.toNat - 0xc0) * 64 + (second.toNat - 0x80)).isValidChar :=
    Or.inl (by omega)
  refine wellFormedUtf8_of_value valid ?_
  rw [String.utf8EncodeChar, val_toNat_ofNatAux, if_neg (by omega), if_pos (by omega),
    eq_ofNat first (by omega), eq_ofNat second (by omega)]

theorem wellFormed_three {first second third : UInt8} (range : 0xe0 ≤ first ∧ first ≤ 0xef)
    (allowed : secondOfThree first second = true) (continued : continuation third = true) :
    WellFormedUtf8 [first, second, third] := by
  have range : 0xe0 ≤ first.toNat ∧ first.toNat ≤ 0xef := between_iff.mp range
  obtain ⟨middle, shortest, noSurrogate⟩ := secondOfThree_iff.mp allowed
  have next := continuation_iff.mp continued
  have valid : ((first.toNat - 0xe0) * 4096 + (second.toNat - 0x80) * 64 +
      (third.toNat - 0x80)).isValidChar := by
    by_cases below : first.toNat ≤ 0xed
    · exact Or.inl (by omega)
    · exact Or.inr (by omega)
  refine wellFormedUtf8_of_value valid ?_
  rw [String.utf8EncodeChar, val_toNat_ofNatAux, if_neg (by omega), if_neg (by omega),
    if_pos (by omega), eq_ofNat first (by omega), eq_ofNat second (by omega),
    eq_ofNat third (by omega)]

theorem wellFormed_four {first second third fourth : UInt8} (range : 0xf0 ≤ first ∧ first ≤ 0xf4)
    (allowed : secondOfFour first second = true) (continued : continuation third = true)
    (continued' : continuation fourth = true) : WellFormedUtf8 [first, second, third, fourth] := by
  have range : 0xf0 ≤ first.toNat ∧ first.toNat ≤ 0xf4 := between_iff.mp range
  obtain ⟨middle, shortest, inRange⟩ := secondOfFour_iff.mp allowed
  have next := continuation_iff.mp continued
  have last := continuation_iff.mp continued'
  have valid : ((first.toNat - 0xf0) * 262144 + (second.toNat - 0x80) * 4096 +
      (third.toNat - 0x80) * 64 + (fourth.toNat - 0x80)).isValidChar := Or.inr (by omega)
  refine wellFormedUtf8_of_value valid ?_
  rw [String.utf8EncodeChar, val_toNat_ofNatAux, if_neg (by omega), if_neg (by omega),
    if_neg (by omega), eq_ofNat first (by omega), eq_ofNat second (by omega),
    eq_ofNat third (by omega), eq_ofNat fourth (by omega)]

/-- **What the check accepts is UTF-8.** -/
theorem wellFormed_of_validUtf8Bytes {bytes : Bytes} (valid : validUtf8Bytes bytes = true) :
    WellFormedUtf8 bytes := by
  fun_induction validUtf8Bytes bytes with
  | case1 => exact ⟨[], rfl⟩
  | case2 first rest range ih => exact (wellFormed_one range).append (ih valid)
  | case3 first _ range second rest continued ih =>
      exact (wellFormed_two range continued).append (ih valid)
  | case4 => cases valid
  | case5 => cases valid
  | case6 first _ _ range second third rest continued ih =>
      simp only [Bool.and_eq_true] at continued
      exact (wellFormed_three range continued.2 continued.1).append (ih valid)
  | case7 => cases valid
  | case8 => cases valid
  | case9 first _ _ _ range second third fourth rest continued ih =>
      simp only [Bool.and_eq_true] at continued
      exact (wellFormed_four range continued.2 continued.1.1 continued.1.2).append (ih valid)
  | case10 => cases valid
  | case11 => cases valid
  | case12 => cases valid

theorem toNat_ofNat {value : ℕ} (small : value < 256) : (UInt8.ofNat value).toNat = value := by
  rw [UInt8.toNat_ofNat', Nat.mod_eq_of_lt small]

section Steps

variable {first second third fourth : UInt8} (rest : Bytes)

theorem validUtf8Bytes_one (range : first ≤ 0x7f) :
    validUtf8Bytes (first :: rest) = validUtf8Bytes rest := by
  rw [validUtf8Bytes.eq_def]
  exact if_pos range

theorem validUtf8Bytes_two (range : 0xc2 ≤ first ∧ first ≤ 0xdf)
    (continued : continuation second = true) :
    validUtf8Bytes (first :: second :: rest) = validUtf8Bytes rest := by
  have above : ¬ first ≤ 0x7f := by grind
  simp only [validUtf8Bytes, if_neg above, if_pos range, continued, if_true]

theorem validUtf8Bytes_three (range : 0xe0 ≤ first ∧ first ≤ 0xef)
    (allowed : secondOfThree first second = true) (continued : continuation third = true) :
    validUtf8Bytes (first :: second :: third :: rest) = validUtf8Bytes rest := by
  have above : ¬ first ≤ 0x7f ∧ ¬ (0xc2 ≤ first ∧ first ≤ 0xdf) := by grind
  simp only [validUtf8Bytes, if_neg above.1, if_neg above.2, if_pos range, allowed, continued,
    Bool.and_true, if_true]

theorem validUtf8Bytes_four (range : 0xf0 ≤ first ∧ first ≤ 0xf4)
    (allowed : secondOfFour first second = true) (continued : continuation third = true)
    (continued' : continuation fourth = true) :
    validUtf8Bytes (first :: second :: third :: fourth :: rest) = validUtf8Bytes rest := by
  have above : ¬ first ≤ 0x7f ∧ ¬ (0xc2 ≤ first ∧ first ≤ 0xdf) ∧
      ¬ (0xe0 ≤ first ∧ first ≤ 0xef) := by grind
  simp only [validUtf8Bytes, if_neg above.1, if_neg above.2.1, if_neg above.2.2, if_pos range,
    allowed, continued, continued', Bool.and_true, if_true]

/-- A character and what follows it are checked as what follows it. -/
theorem validUtf8Bytes_encode_append (character : Char) :
    validUtf8Bytes (String.utf8EncodeChar character ++ rest) = validUtf8Bytes rest := by
  have scalar : character.val.toNat < 0xd800 ∨
      (0xdfff < character.val.toNat ∧ character.val.toNat < 0x110000) := character.valid
  generalize value : character.val.toNat = number at scalar
  simp only [String.utf8EncodeChar, value]
  split
  · rename_i ascii
    refine validUtf8Bytes_one rest (UInt8.le_iff_toNat_le.mpr ?_)
    rw [toNat_ofNat (by omega)]
    exact ascii
  · split
    · refine validUtf8Bytes_two rest (between_iff.mpr ?_) (continuation_iff.mpr ?_)
      · rw [toNat_ofNat (by omega)]
        exact ⟨(by omega : 0xc2 ≤ _), (by omega : _ ≤ 0xdf)⟩
      · rw [toNat_ofNat (by omega)]
        omega
    · split
      · refine validUtf8Bytes_three rest (between_iff.mpr ?_) (secondOfThree_iff.mpr ?_)
          (continuation_iff.mpr ?_)
        · rw [toNat_ofNat (by omega)]
          exact ⟨(by omega : 0xe0 ≤ _), (by omega : _ ≤ 0xef)⟩
        · rw [toNat_ofNat (by omega), toNat_ofNat (by omega)]
          omega
        · rw [toNat_ofNat (by omega)]
          omega
      · refine validUtf8Bytes_four rest (between_iff.mpr ?_) (secondOfFour_iff.mpr ?_)
          (continuation_iff.mpr ?_) (continuation_iff.mpr ?_)
        · rw [toNat_ofNat (by omega)]
          exact ⟨(by omega : 0xf0 ≤ _), (by omega : _ ≤ 0xf4)⟩
        · rw [toNat_ofNat (by omega), toNat_ofNat (by omega)]
          omega
        · rw [toNat_ofNat (by omega)]
          omega
        · rw [toNat_ofNat (by omega)]
          omega

end Steps

/-- **The check accepts exactly UTF-8.** -/
theorem validUtf8Bytes_iff {bytes : Bytes} :
    validUtf8Bytes bytes = true ↔ WellFormedUtf8 bytes := by
  refine ⟨wellFormed_of_validUtf8Bytes, ?_⟩
  rintro ⟨characters, rfl⟩
  induction characters with
  | nil => rfl
  | cons character characters ih => rw [List.flatMap_cons, validUtf8Bytes_encode_append, ih]

end IcuTransport.Capture
