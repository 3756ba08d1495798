import IcuTransport.Capture.Utf8
import IcuTransport.Library.Utf16

/-!
# Java strings as UTF-8

A Java string is a sequence of UTF-16 code units. `jstringToUtf8` embeds its conversion in
`android/jni_transport.c`: the units are read one or two at a time, and each character is appended
to an array of four bytes for each unit and one more. The code answers every refusal with zero; the
model keeps the reason.

The conversion succeeds exactly for the strings whose surrogates are paired, and gives the UTF-8 of
their characters (`jstring_to_utf8_exact`). The tests for room in the array are never the reason of
a refusal.
-/

set_option autoImplicit false

namespace IcuTransport.Android

open Ascii Capture Utf16

/-! ## The code -/

/-- Why a string is not converted. -/
inductive ConversionRefusal where
  | nullString
  | noCharacters
  | noMemory
  | unpairedSurrogate
  | noRoom
  | noCodePoint
  deriving DecidableEq, Repr

/-- A converted string: the array with its terminator, and the length that is reported. -/
structure Utf8Text where
  bytes : Bytes
  length : ℕ
  deriving DecidableEq, Repr

/-- The outcomes of the calls for one string: its characters are there, and the array is. -/
structure StringCalls where
  characters : Bool
  allocates : Bool
  deriving DecidableEq, Repr

/-- The byte of a mark and the bits below it, as the cast to `char` keeps it. -/
def marked (mark bits : UInt32) : UInt8 := (mark ||| bits).toUInt8

/-- Append the bytes of a code point, when room is left for them and for the terminator. -/
def appendCodePoint (capacity : ℕ) (output : Bytes) (codePoint : UInt32) :
    Except ConversionRefusal Bytes :=
  if codePoint ≤ 0x7f then
    if output.length + 1 ≥ capacity then .error .noRoom
    else .ok (output ++ [codePoint.toUInt8])
  else if codePoint ≤ 0x7ff then
    if output.length + 2 ≥ capacity then .error .noRoom
    else
      .ok (output ++ [marked 0xc0 (codePoint >>> 6), marked 0x80 (codePoint &&& 0x3f)])
  else if codePoint ≤ 0xffff then
    if output.length + 3 ≥ capacity then .error .noRoom
    else
      .ok (output ++ [marked 0xe0 (codePoint >>> 12),
        marked 0x80 ((codePoint >>> 6) &&& 0x3f), marked 0x80 (codePoint &&& 0x3f)])
  else if codePoint ≤ 0x10ffff then
    if output.length + 4 ≥ capacity then .error .noRoom
    else
      .ok (output ++ [marked 0xf0 (codePoint >>> 18),
        marked 0x80 ((codePoint >>> 12) &&& 0x3f),
        marked 0x80 ((codePoint >>> 6) &&& 0x3f), marked 0x80 (codePoint &&& 0x3f)])
  else .error .noCodePoint

/-- The loop of `jstring_to_utf8`, after the given bytes. -/
def convertUnits (capacity : ℕ) : List UInt16 → Bytes → Except ConversionRefusal Bytes
  | [], output => .ok output
  | unit :: rest, output =>
      let codePoint := unit.toUInt32
      if 0xd800 ≤ codePoint ∧ codePoint ≤ 0xdbff then
        match rest with
        | [] => .error .unpairedSurrogate
        | next :: rest =>
            let low := next.toUInt32
            if low < 0xdc00 ∨ low > 0xdfff then .error .unpairedSurrogate
            else
              match appendCodePoint capacity output
                ((0x10000 : UInt32) + ((codePoint - 0xd800) <<< 10) + (low - 0xdc00)) with
              | .error refusal => .error refusal
              | .ok output => convertUnits capacity rest output
      else if 0xdc00 ≤ codePoint ∧ codePoint ≤ 0xdfff then .error .unpairedSurrogate
      else
        match appendCodePoint capacity output codePoint with
        | .error refusal => .error refusal
        | .ok output => convertUnits capacity rest output

/-- The size of the array for so many units. -/
def conversionCapacity (units : ℕ) : ℕ := units * 4 + 1

/-- The UTF-8 of a Java string, which is null or has code units. -/
def jstringToUtf8 (calls : StringCalls) : Option (List UInt16) → Except ConversionRefusal Utf8Text
  | none => .error .nullString
  | some units =>
      if calls.characters = false then .error .noCharacters
      else if calls.allocates = false then .error .noMemory
      else
        match convertUnits (conversionCapacity units.length) units [] with
        | .error refusal => .error refusal
        | .ok output => .ok ⟨output ++ [nul], output.length⟩

/-! ## One character -/

/-- Bits below a mark are added to it. -/
theorem marked_eq {mark bits : UInt32} {shift factor : ℕ}
    (aligned : mark.toNat = 2 ^ shift * factor)
    (small : bits.toNat < 2 ^ shift) :
    marked mark bits = UInt8.ofNat (bits.toNat + mark.toNat) := by
  apply UInt8.toNat_inj.mp
  rw [marked, UInt32.toNat_toUInt8, UInt32.toNat_or, UInt8.toNat_ofNat', aligned,
    ← Nat.two_pow_add_eq_or_of_lt small, Nat.add_comm]

theorem toNat_shiftRight (codePoint shift : UInt32) (small : shift.toNat < 32) :
    (codePoint >>> shift).toNat = codePoint.toNat / 2 ^ shift.toNat := by
  rw [UInt32.toNat_shiftRight, Nat.mod_eq_of_lt small, Nat.shiftRight_eq_div_pow]

/-- A byte after the first of a character holds six bits. -/
theorem marked_continuation (bits : UInt32) :
    marked 0x80 (bits &&& 0x3f) = UInt8.ofNat (bits.toNat % 64 + 0x80) := by
  have six : (bits &&& 0x3f).toNat = bits.toNat % 64 := by
    rw [UInt32.toNat_and]
    exact Nat.and_two_pow_sub_one_eq_mod _ 6
  have small : (bits &&& 0x3f).toNat < 2 ^ 6 := by
    rw [six]
    exact Nat.mod_lt _ (by decide)
  rw [marked_eq (by decide : (0x80 : UInt32).toNat = 2 ^ 6 * 2) small, six]
  rfl

/-- **Where there is room, a character is appended as UTF-8.** -/
theorem appendCodePoint_char {capacity : ℕ} {output : Bytes} {codePoint : UInt32} {character : Char}
    (same : codePoint.toNat = character.toNat) (room : output.length + 4 < capacity) :
    appendCodePoint capacity output codePoint =
      .ok (output ++ String.utf8EncodeChar character) := by
  have bound : codePoint.toNat < 0x110000 := by
    have scalar : character.toNat < 0xd800 ∨
        (0xdfff < character.toNat ∧ character.toNat < 0x110000) := character.valid
    omega
  have value : character.val.toNat = codePoint.toNat := same.symm
  have limits : (0x7f : UInt32).toNat = 0x7f ∧ (0x7ff : UInt32).toNat = 0x7ff ∧
      (0xffff : UInt32).toNat = 0xffff ∧ (0x10ffff : UInt32).toNat = 0x10ffff := by decide
  have marks : (0xc0 : UInt32).toNat = 2 ^ 6 * 3 ∧ (0xe0 : UInt32).toNat = 2 ^ 4 * 14 ∧
      (0xf0 : UInt32).toNat = 2 ^ 3 * 30 := by decide
  have shifted : (codePoint >>> 6).toNat = codePoint.toNat / 64 ∧
      (codePoint >>> 12).toNat = codePoint.toNat / 4096 ∧
      (codePoint >>> 18).toNat = codePoint.toNat / 262144 :=
    ⟨toNat_shiftRight _ _ (by decide), toNat_shiftRight _ _ (by decide),
      toNat_shiftRight _ _ (by decide)⟩
  simp only [appendCodePoint, String.utf8EncodeChar, value, UInt32.le_iff_toNat_le, limits,
    marked_continuation, shifted]
  split
  · rw [if_neg (by omega)]
    rfl
  · split
    · rw [if_neg (by omega), marked_eq marks.1 (by rw [shifted.1]; omega), shifted.1,
        Nat.mod_eq_of_lt (by omega : codePoint.toNat / 64 < 32)]
      rfl
    · split
      · rw [if_neg (by omega), marked_eq marks.2.1 (by rw [shifted.2.1]; omega), shifted.2.1,
          Nat.mod_eq_of_lt (by omega : codePoint.toNat / 4096 < 16)]
        rfl
      · rw [if_pos (by omega), if_neg (by omega), marked_eq marks.2.2 (by rw [shifted.2.2]; omega),
          shifted.2.2, Nat.mod_eq_of_lt (by omega : codePoint.toNat / 262144 < 8)]
        rfl

/-! ## Code units -/

theorem high_iff {unit : UInt16} :
    (0xd800 ≤ unit.toUInt32 ∧ unit.toUInt32 ≤ 0xdbff) ↔ isHigh unit = true := by
  rw [isHigh_iff, UInt32.le_iff_toNat_le, UInt32.le_iff_toNat_le, UInt16.toNat_toUInt32]
  exact Iff.rfl

theorem low_iff {unit : UInt16} :
    (0xdc00 ≤ unit.toUInt32 ∧ unit.toUInt32 ≤ 0xdfff) ↔ isLow unit = true := by
  rw [isLow_iff, UInt32.le_iff_toNat_le, UInt32.le_iff_toNat_le, UInt16.toNat_toUInt32]
  exact Iff.rfl

theorem not_low_iff {unit : UInt16} :
    (unit.toUInt32 < 0xdc00 ∨ unit.toUInt32 > 0xdfff) ↔ isLow unit = false := by
  rw [← Bool.not_eq_true, ← low_iff, not_and_or, UInt32.not_le, UInt32.not_le]

theorem toNat_sub_base {unit : UInt16} {base : UInt32} (above : base ≤ unit.toUInt32) :
    (unit.toUInt32 - base).toNat = unit.toNat - base.toNat := by
  rw [UInt32.toNat_sub_of_le _ _ above, UInt16.toNat_toUInt32]

/-- The sums of 32 bits do not wrap for ten bits of each surrogate. -/
theorem pair_sum {upper lower : ℕ} (high : upper < 0x400) (low : lower < 0x400) :
    ((0x10000 + upper * 2 ^ 10 % 2 ^ 32) % 2 ^ 32 + lower) % 2 ^ 32 =
      0x10000 + upper * 0x400 + lower := by
  omega

theorem high_bits {unit : UInt16} (high : isHigh unit = true) : unit.toNat - 0xd800 < 0x400 := by
  have bounds := isHigh_iff.mp high
  omega

theorem low_bits {unit : UInt16} (low : isLow unit = true) : unit.toNat - 0xdc00 < 0x400 := by
  have bounds := isLow_iff.mp low
  omega

/-- The sum of the code is the number of the pair. -/
theorem toNat_pair {high low : UInt16} (isHighFirst : isHigh high = true)
    (isLowSecond : isLow low = true) :
    ((0x10000 : UInt32) + ((high.toUInt32 - 0xd800) <<< 10) + (low.toUInt32 - 0xdc00)).toNat =
      pairValue high low := by
  have ten : (10 : UInt32).toNat % 32 = 10 := by decide
  rw [UInt32.toNat_add, UInt32.toNat_add, UInt32.toNat_shiftLeft, ten, Nat.shiftLeft_eq,
    toNat_sub_base (high_iff.mpr isHighFirst).1, toNat_sub_base (low_iff.mpr isLowSecond).1]
  exact pair_sum (high_bits isHighFirst) (low_bits isLowSecond)

section Loop

variable {capacity : ℕ} {unit next : UInt16} (rest : List UInt16) {output : Bytes}

/-- A unit that is no surrogate is one character. -/
theorem convertUnits_of_unit (notHigh : isHigh unit = false) (notLow : isLow unit = false)
    (room : output.length + 4 < capacity) :
    ∃ character : Char, encodeChar character = [unit] ∧
      convertUnits capacity (unit :: rest) output =
        convertUnits capacity rest (output ++ String.utf8EncodeChar character) := by
  obtain ⟨character, value, encoded⟩ := exists_char_of_unit notHigh notLow
  have same : unit.toUInt32.toNat = character.toNat := by
    rw [UInt16.toNat_toUInt32, value]
  have appended := appendCodePoint_char same room
  refine ⟨character, encoded, ?_⟩
  rw [convertUnits.eq_def]
  simp only [high_iff, low_iff, notHigh, notLow, Bool.false_eq_true, if_false, appended]

/-- A pair is one character. -/
theorem convertUnits_of_pair (high : isHigh unit = true) (low : isLow next = true)
    (room : output.length + 4 < capacity) :
    ∃ character : Char, encodeChar character = [unit, next] ∧
      convertUnits capacity (unit :: next :: rest) output =
        convertUnits capacity rest (output ++ String.utf8EncodeChar character) := by
  obtain ⟨character, value, encoded⟩ := exists_char_of_pair high low
  have appended := appendCodePoint_char ((toNat_pair high low).trans value.symm) room
  refine ⟨character, encoded, ?_⟩
  rw [convertUnits.eq_def]
  simp only [high_iff, not_low_iff, high, low, Bool.true_eq_false, if_true, if_false, appended]

/-- A low surrogate that comes first is refused. -/
theorem convertUnits_of_low (low : isLow unit = true) :
    convertUnits capacity (unit :: rest) output = .error .unpairedSurrogate := by
  rw [convertUnits.eq_def]
  simp only [high_iff, low_iff, not_isHigh_of_isLow low, low, Bool.false_eq_true, if_true, if_false]

/-- A high surrogate without a low one is refused. -/
theorem convertUnits_of_lone (high : isHigh unit = true)
    (lone : ∀ low after, rest = low :: after → isLow low = false) :
    convertUnits capacity (unit :: rest) output = .error .unpairedSurrogate := by
  cases rest with
  | nil =>
      rw [convertUnits.eq_def]
      simp only [high_iff, high, if_true]
  | cons other after =>
      rw [convertUnits.eq_def]
      simp only [high_iff, not_low_iff, high, lone other after rfl, if_true]

end Loop

/-- What the loop makes of units: the UTF-8 of their characters, or a refusal where a surrogate is
unpaired. -/
def Converts (capacity : ℕ) (units : List UInt16) (output : Bytes) : Prop :=
  (Paired units ∧ ∃ characters : List Char, units = characters.flatMap encodeChar ∧
      convertUnits capacity units output =
        .ok (output ++ characters.flatMap String.utf8EncodeChar)) ∨
    (¬ Paired units ∧ convertUnits capacity units output = .error .unpairedSurrogate)

/-- A character at the front leaves the rest to be converted. -/
theorem Converts.cons {capacity : ℕ} {output : Bytes} {front after : List UInt16} {character : Char}
    (encoded : encodeChar character = front) (paired : Paired (front ++ after) ↔ Paired after)
    (step : convertUnits capacity (front ++ after) output =
      convertUnits capacity after (output ++ String.utf8EncodeChar character))
    (later : Converts capacity after (output ++ String.utf8EncodeChar character)) :
    Converts capacity (front ++ after) output := by
  rcases later with ⟨whole, characters, rfl, result⟩ | ⟨unpaired, refused⟩
  · refine Or.inl ⟨paired.mpr whole, character :: characters, ?_, ?_⟩
    · rw [List.flatMap_cons, encoded]
    · rw [step, result, List.flatMap_cons, List.append_assoc]
  · exact Or.inr ⟨fun whole => unpaired (paired.mp whole), step.trans refused⟩

theorem length_utf8EncodeChar_le (character : Char) :
    (String.utf8EncodeChar character).length ≤ 4 := by
  rw [String.length_utf8EncodeChar]
  exact character.utf8Size_le_four

/-- A low surrogate at the front is refused. -/
theorem Converts.of_low {capacity : ℕ} {output : Bytes} {unit : UInt16} (rest : List UInt16)
    (high : isHigh unit = false) (low : isLow unit = true) :
    Converts capacity (unit :: rest) output := by
  refine Or.inr ⟨fun paired => ?_, convertUnits_of_low rest low⟩
  rcases paired_cons_iff.mp paired with ⟨_, notLow, _⟩ | ⟨isHighUnit, _⟩
  · rw [low] at notLow
    cases notLow
  · rw [high] at isHighUnit
    cases isHighUnit

/-- A high surrogate that no low one follows is refused. -/
theorem Converts.of_lone {capacity : ℕ} {output : Bytes} {unit : UInt16} {rest : List UInt16}
    (high : isHigh unit = true)
    (alone : ¬ ∃ low after, rest = low :: after ∧ isLow low = true) :
    Converts capacity (unit :: rest) output := by
  refine Or.inr ⟨fun paired => ?_, convertUnits_of_lone rest high ?_⟩
  · rcases paired_cons_iff.mp paired with ⟨notHigh, _⟩ | ⟨_, low, after, split, isLowNext, _⟩
    · rw [high] at notHigh
      cases notHigh
    · exact alone ⟨low, after, split, isLowNext⟩
  · intro low after split
    exact Bool.of_not_eq_true fun isLowNext => alone ⟨low, after, split, isLowNext⟩

/-- **The units are converted character by character**, when the array has room for four bytes for
each of them and for the terminator. -/
theorem convertUnits_converts {capacity : ℕ} (units : List UInt16) (output : Bytes)
    (room : output.length + units.length * 4 < capacity) : Converts capacity units output := by
  -- one or two units are taken at a time, so the induction is on their number
  induction count : units.length using Nat.strong_induction_on generalizing units output with
  | _ number ih =>
    subst count
    cases units with
    | nil => exact Or.inl ⟨.nil, [], rfl, by simp [convertUnits]⟩
    | cons unit rest =>
        rw [List.length_cons] at room
        have lengths : ∀ character : Char,
            (output ++ String.utf8EncodeChar character).length ≤ output.length + 4 := by
          intro character
          have short := length_utf8EncodeChar_le character
          rw [List.length_append]
          omega
        cases high : isHigh unit with
        | false =>
            cases low : isLow unit with
            | true => exact Converts.of_low rest high low
            | false =>
                obtain ⟨character, encoded, step⟩ := convertUnits_of_unit rest high low
                  (by omega : output.length + 4 < capacity)
                have bound := lengths character
                have paired : Paired ([unit] ++ rest) ↔ Paired rest :=
                  ⟨fun whole => whole.after [] high, fun after => after.cons high low⟩
                exact Converts.cons encoded paired step
                  (ih rest.length (by simp) rest _ (by omega) rfl)
        | true =>
            by_cases followed : ∃ low after, rest = low :: after ∧ isLow low = true
            · obtain ⟨low, after, rfl, isLowNext⟩ := followed
              rw [List.length_cons] at room
              obtain ⟨character, encoded, step⟩ := convertUnits_of_pair after high isLowNext
                (by omega : output.length + 4 < capacity)
              have bound := lengths character
              have paired : Paired ([unit, low] ++ after) ↔ Paired after :=
                ⟨fun whole => whole.after [unit] (not_isHigh_of_isLow isLowNext),
                  fun later => later.cons_pair high isLowNext⟩
              exact Converts.cons encoded paired step
                (ih after.length (by simp) after _ (by omega) rfl)
            · exact Converts.of_lone high followed

/-! ## The string -/

/-- What becomes of a string whose characters and array are there. -/
theorem jstringToUtf8_some (units : List UInt16) :
    (Paired units ∧ ∃ characters : List Char, units = characters.flatMap encodeChar ∧
        jstringToUtf8 ⟨true, true⟩ (some units) =
          .ok ⟨characters.flatMap String.utf8EncodeChar ++ [nul],
            (characters.flatMap String.utf8EncodeChar).length⟩) ∨
      (¬ Paired units ∧ jstringToUtf8 ⟨true, true⟩ (some units) = .error .unpairedSurrogate) := by
  have room : ([] : Bytes).length + units.length * 4 < conversionCapacity units.length := by
    rw [conversionCapacity, List.length_nil, Nat.zero_add]
    exact Nat.lt_succ_self _
  rcases convertUnits_converts units
    [] room with ⟨paired, characters, encoded, result⟩ | ⟨unpaired, refused⟩
  · refine Or.inl ⟨paired, characters, encoded, ?_⟩
    simp only [jstringToUtf8, Bool.true_eq_false, if_false, result, List.nil_append]
  · refine Or.inr ⟨unpaired, ?_⟩
    simp only [jstringToUtf8, Bool.true_eq_false, if_false, refused]

/-- The UTF-8 of a character has at most four bytes for each of its units. -/
theorem length_utf8_le (characters : List Char) :
    (characters.flatMap String.utf8EncodeChar).length ≤
      (characters.flatMap encodeChar).length * 4 := by
  induction characters with
  | nil => exact Nat.le_refl _
  | cons character characters ih =>
      have short := length_utf8EncodeChar_le character
      have filled : 0 < (encodeChar character).length := by
        unfold encodeChar
        split
        · exact Nat.one_pos
        · exact Nat.two_pos
      rw [List.flatMap_cons, List.flatMap_cons, List.length_append, List.length_append]
      omega

/-- **The conversion of Java strings is exact.** Where the characters and the array are there, a
string is converted exactly when every surrogate of it is part of a pair. What comes out is the
UTF-8 of its characters with a terminator after it; it passes the check of `valid_utf8_bytes`, the
reported length is its length, and the array has room for it and for the terminator. A string that
is refused has an unpaired surrogate: the tests for room never fail. -/
theorem jstring_to_utf8_exact (units : List UInt16) :
    ((∃ text, jstringToUtf8 ⟨true, true⟩ (some units) = .ok text) ↔ Paired units) ∧
      (∀ text, jstringToUtf8 ⟨true, true⟩ (some units) = .ok text →
        ∃ characters : List Char, units = characters.flatMap encodeChar ∧
          text.bytes = characters.flatMap String.utf8EncodeChar ++ [nul] ∧
          text.length = (characters.flatMap String.utf8EncodeChar).length ∧
          validUtf8Bytes (characters.flatMap String.utf8EncodeChar) = true ∧
          text.bytes.length ≤ conversionCapacity units.length) ∧
      ∀ refusal, jstringToUtf8 ⟨true, true⟩ (some units) = .error refusal →
        refusal = .unpairedSurrogate := by
  rcases jstringToUtf8_some units with ⟨paired, characters, encoded, result⟩ | ⟨unpaired, refused⟩
  · rw [result]
    refine ⟨⟨fun _ => paired, fun _ => ⟨_, rfl⟩⟩, ?_, ?_⟩
    · intro text same
      obtain rfl := Except.ok.inj same
      refine ⟨characters, encoded, rfl, rfl, validUtf8Bytes_iff.mpr ⟨characters, rfl⟩, ?_⟩
      have bound := length_utf8_le characters
      rw [← encoded] at bound
      rw [conversionCapacity, List.length_append, List.length_singleton]
      omega
    · intro refusal same
      cases same
  · rw [refused]
    refine ⟨⟨?_, fun paired => absurd paired unpaired⟩, ?_, ?_⟩
    · rintro ⟨text, absurdity⟩
      cases absurdity
    · intro text absurdity
      cases absurdity
    · intro refusal same
      exact (Except.error.inj same).symm

end IcuTransport.Android
