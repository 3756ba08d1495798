import Mathlib.Data.List.Basic

/-!
# UTF-16

The encoding of characters as code units, and the sequences of code units that encode anything. A
character above the basic plane is a pair of surrogates, a high one and a low one. A sequence is
paired when each high surrogate is followed by a low one and each low one comes after a high one.
These are conditions on neighbours. They say how a sequence starts (`paired_cons_iff`), and what
stands at its start is the code of a character (`exists_char_of_unit`, `exists_char_of_pair`). A
sequence of code units has at most one reading (`flatMap_encodeChar_inj`).
-/

set_option autoImplicit false

namespace Utf16

/-- A high surrogate, the first of a pair. -/
def isHigh (unit : UInt16) : Bool := 0xd800 ≤ unit && unit ≤ 0xdbff

/-- A low surrogate, the second of a pair. -/
def isLow (unit : UInt16) : Bool := 0xdc00 ≤ unit && unit ≤ 0xdfff

/-- The code units of a character. -/
def encodeChar (character : Char) : List UInt16 :=
  if character.toNat < 0x10000 then [UInt16.ofNat character.toNat]
  else
    [UInt16.ofNat (0xd800 + (character.toNat - 0x10000) / 0x400),
      UInt16.ofNat (0xdc00 + (character.toNat - 0x10000) % 0x400)]

/-- Every surrogate is part of a pair. -/
structure Paired (units : List UInt16) : Prop where
  high : ∀ index unit, units[index]? = some unit → isHigh unit = true →
    ∃ next, units[index + 1]? = some next ∧ isLow next = true
  low : ∀ index unit, units[index]? = some unit → isLow unit = true →
    ∃ before previous, index = before + 1 ∧ units[before]? = some previous ∧ isHigh previous = true

/-! ## Surrogates as numbers -/

theorem isHigh_iff {unit : UInt16} :
    isHigh unit = true ↔ 0xd800 ≤ unit.toNat ∧ unit.toNat ≤ 0xdbff := by
  simp [isHigh, UInt16.le_iff_toNat_le]

theorem isLow_iff {unit : UInt16} :
    isLow unit = true ↔ 0xdc00 ≤ unit.toNat ∧ unit.toNat ≤ 0xdfff := by
  simp [isLow, UInt16.le_iff_toNat_le]

theorem not_isLow_of_isHigh {unit : UInt16} (high : isHigh unit = true) : isLow unit = false := by
  refine Bool.of_not_eq_true fun low => ?_
  have upper := (isHigh_iff.mp high).2
  have lower := (isLow_iff.mp low).1
  omega

theorem not_isHigh_of_isLow {unit : UInt16} (low : isLow unit = true) : isHigh unit = false := by
  refine Bool.of_not_eq_true fun high => ?_
  rw [not_isLow_of_isHigh high] at low
  cases low

/-! ## Pairs at the start of a sequence -/

section Cons

variable {unit next : UInt16} {rest : List UInt16}

theorem Paired.nil : Paired [] := by
  refine ⟨?_, ?_⟩
  · intro index unit found
    cases found
  · intro index unit found
    cases found

theorem getElem?_past (before : List UInt16) (last : UInt16) (rest : List UInt16) (index : ℕ) :
    (before ++ last :: rest)[before.length + (index + 1)]? = rest[index]? := by
  rw [List.getElem?_append_right (Nat.le_add_right _ _), Nat.add_sub_cancel_left,
    List.getElem?_cons_succ]

/-- What comes after a unit that is no high surrogate stands on its own. -/
theorem Paired.after (before : List UInt16) (paired : Paired (before ++ unit :: rest))
    (notHigh : isHigh unit = false) : Paired rest := by
  refine ⟨?_, ?_⟩
  · intro index other found high
    rw [← getElem?_past before unit] at found
    obtain ⟨next, here, low⟩ := paired.high _ other found high
    rw [Nat.add_assoc, getElem?_past before unit rest (index + 1)] at here
    exact ⟨next, here, low⟩
  · intro index other found low
    rw [← getElem?_past before unit] at found
    obtain ⟨position, previous, same, here, high⟩ := paired.low _ other found low
    cases index with
    | zero =>
        obtain rfl : position = before.length := by omega
        rw [List.getElem?_append_right (Nat.le_refl _), Nat.sub_self,
          List.getElem?_cons_zero] at here
        obtain rfl := Option.some.inj here
        rw [notHigh] at high
        cases high
    | succ index =>
        obtain rfl : position = before.length + (index + 1) := by omega
        rw [getElem?_past] at here
        exact ⟨index, previous, rfl, here, high⟩

/-- A unit that is no surrogate can be put in front. -/
theorem Paired.cons (paired : Paired rest) (notHigh : isHigh unit = false)
    (notLow : isLow unit = false) : Paired (unit :: rest) := by
  refine ⟨?_, ?_⟩
  · intro index other found high
    cases index with
    | zero =>
        obtain rfl := Option.some.inj found
        rw [notHigh] at high
        cases high
    | succ index => exact paired.high index other found high
  · intro index other found low
    cases index with
    | zero =>
        obtain rfl := Option.some.inj found
        rw [notLow] at low
        cases low
    | succ index =>
        obtain ⟨before, previous, same, here, high⟩ := paired.low index other found low
        exact ⟨before + 1, previous, by omega, here, high⟩

/-- A pair can be put in front. -/
theorem Paired.cons_pair (paired : Paired rest) (high : isHigh unit = true)
    (low : isLow next = true) : Paired (unit :: next :: rest) := by
  have notLow := not_isLow_of_isHigh high
  have notHigh := not_isHigh_of_isLow low
  refine ⟨?_, ?_⟩
  · intro index other found isHighOther
    rcases index with _ | _ | index
    · exact ⟨next, rfl, low⟩
    · obtain rfl := Option.some.inj found
      rw [notHigh] at isHighOther
      cases isHighOther
    · exact paired.high index other found isHighOther
  · intro index other found isLowOther
    rcases index with _ | _ | index
    · obtain rfl := Option.some.inj found
      rw [notLow] at isLowOther
      cases isLowOther
    · exact ⟨0, unit, rfl, rfl, high⟩
    · obtain ⟨before, previous, same, here, isHighPrevious⟩ :=
        paired.low index other found isLowOther
      exact ⟨before + 2, previous, by omega, here, isHighPrevious⟩

/-- **How a paired sequence starts**: with a unit that is no surrogate, or with a pair. -/
theorem paired_cons_iff :
    Paired (unit :: rest) ↔
      (isHigh unit = false ∧ isLow unit = false ∧ Paired rest) ∨
        (isHigh unit = true ∧ ∃ low after, rest = low :: after ∧ isLow low = true ∧
          Paired after) := by
  constructor
  · intro paired
    have notLow : isLow unit = false := by
      refine Bool.of_not_eq_true fun low => ?_
      obtain ⟨before, _, absurdity, _⟩ := paired.low 0 unit rfl low
      omega
    cases high : isHigh unit with
    | false => exact Or.inl ⟨rfl, notLow, Paired.after [] paired high⟩
    | true =>
        obtain ⟨low, second, isLowSecond⟩ := paired.high 0 unit rfl high
        right
        cases rest with
        | nil => cases second
        | cons found after =>
            obtain rfl := Option.some.inj second
            exact ⟨rfl, found, after, rfl, isLowSecond,
              Paired.after [unit] paired (not_isHigh_of_isLow isLowSecond)⟩
  · rintro (⟨notHigh, notLow, paired⟩ | ⟨high, low, after, rfl, isLowNext, paired⟩)
    · exact paired.cons notHigh notLow
    · exact paired.cons_pair high isLowNext

end Cons

/-! ## Characters -/

/-- The character of a unit that is no surrogate. -/
theorem exists_char_of_unit {unit : UInt16} (notHigh : isHigh unit = false)
    (notLow : isLow unit = false) :
    ∃ character : Char, character.toNat = unit.toNat ∧ encodeChar character = [unit] := by
  have small := unit.toNat_lt
  have valid : unit.toNat.isValidChar := by
    have outside : ¬ (0xd800 ≤ unit.toNat ∧ unit.toNat ≤ 0xdfff) := by
      intro inside
      by_cases upper : unit.toNat ≤ 0xdbff
      · rw [isHigh_iff.mpr ⟨inside.1, upper⟩] at notHigh
        cases notHigh
      · rw [isLow_iff.mpr ⟨by omega, inside.2⟩] at notLow
        cases notLow
    by_cases below : unit.toNat < 0xd800
    · exact Or.inl below
    · exact Or.inr ⟨by omega, by omega⟩
  have value : (Char.ofNatAux unit.toNat valid).toNat = unit.toNat := rfl
  refine ⟨Char.ofNatAux unit.toNat valid, value, ?_⟩
  rw [encodeChar, value, if_pos small, UInt16.ofNat_toNat]

/-- The number of a pair of surrogates. -/
def pairValue (high low : UInt16) : ℕ :=
  0x10000 + (high.toNat - 0xd800) * 0x400 + (low.toNat - 0xdc00)

/-- The character of a pair. -/
theorem exists_char_of_pair {high low : UInt16} (isHighFirst : isHigh high = true)
    (isLowSecond : isLow low = true) :
    ∃ character : Char, character.toNat = pairValue high low ∧
      encodeChar character = [high, low] := by
  have first := isHigh_iff.mp isHighFirst
  have second := isLow_iff.mp isLowSecond
  have valid : (pairValue high low).isValidChar := by
    right
    unfold pairValue
    omega
  have value : (Char.ofNatAux (pairValue high low) valid).toNat = pairValue high low := rfl
  refine ⟨Char.ofNatAux (pairValue high low) valid, value, ?_⟩
  have above : ¬ pairValue high low < 0x10000 := by
    unfold pairValue
    omega
  have quotient : 0xd800 + (pairValue high low - 0x10000) / 0x400 = high.toNat := by
    unfold pairValue
    omega
  have remainder : 0xdc00 + (pairValue high low - 0x10000) % 0x400 = low.toNat := by
    unfold pairValue
    omega
  rw [encodeChar, value, if_neg above, quotient, remainder, UInt16.ofNat_toNat, UInt16.ofNat_toNat]

/-! ## One reading -/

theorem toNat_high {above : ℕ} (bound : above < 0x100000) :
    (UInt16.ofNat (0xd800 + above / 0x400)).toNat = 0xd800 + above / 0x400 := by
  rw [UInt16.toNat_ofNat', Nat.mod_eq_of_lt (by omega)]

theorem toNat_low (above : ℕ) :
    (UInt16.ofNat (0xdc00 + above % 0x400)).toNat = 0xdc00 + above % 0x400 := by
  rw [UInt16.toNat_ofNat', Nat.mod_eq_of_lt (by omega)]

theorem high_bounds {above : ℕ} (bound : above < 0x100000) :
    0xd800 ≤ 0xd800 + above / 0x400 ∧ 0xd800 + above / 0x400 ≤ 0xdbff := by
  omega

theorem low_bounds (above : ℕ) :
    0xdc00 ≤ 0xdc00 + above % 0x400 ∧ 0xdc00 + above % 0x400 ≤ 0xdfff := by
  omega

/-- The pair of a number has that number. -/
theorem pairValue_split {above : ℕ} (bound : above < 0x100000) :
    pairValue (UInt16.ofNat (0xd800 + above / 0x400)) (UInt16.ofNat (0xdc00 + above % 0x400)) =
      0x10000 + above := by
  have whole := Nat.div_add_mod above 0x400
  have first := toNat_high bound
  have second := toNat_low above
  unfold pairValue
  generalize (UInt16.ofNat (0xd800 + above / 0x400)).toNat = high at first ⊢
  generalize (UInt16.ofNat (0xdc00 + above % 0x400)).toNat = low at second ⊢
  omega

/-- The two ways a character is encoded: one unit that is no surrogate, or a pair. -/
theorem encodeChar_cases (character : Char) :
    (∃ unit, encodeChar character = [unit] ∧ isHigh unit = false ∧ isLow unit = false ∧
        character.toNat = unit.toNat) ∨
      ∃ high low, encodeChar character = [high, low] ∧ isHigh high = true ∧ isLow low = true ∧
        character.toNat = pairValue high low := by
  have scalar : character.toNat < 0xd800 ∨
      (0xdfff < character.toNat ∧ character.toNat < 0x110000) := character.valid
  by_cases basic : character.toNat < 0x10000
  · have value : (UInt16.ofNat character.toNat).toNat = character.toNat := by
      rw [UInt16.toNat_ofNat', Nat.mod_eq_of_lt basic]
    refine Or.inl ⟨UInt16.ofNat character.toNat, if_pos basic, ?_, ?_, value.symm⟩
    · refine Bool.of_not_eq_true fun high => ?_
      rw [isHigh_iff, value] at high
      omega
    · refine Bool.of_not_eq_true fun low => ?_
      rw [isLow_iff, value] at low
      omega
  · obtain ⟨above, rebased⟩ : ∃ above, character.toNat = 0x10000 + above :=
      ⟨character.toNat - 0x10000, by omega⟩
    have bound : above < 0x100000 := by omega
    have encoded : encodeChar character =
        [UInt16.ofNat (0xd800 + above / 0x400), UInt16.ofNat (0xdc00 + above % 0x400)] := by
      rw [encodeChar, if_neg basic, rebased, Nat.add_sub_cancel_left]
    refine Or.inr ⟨_, _, encoded, isHigh_iff.mpr ?_, isLow_iff.mpr ?_, ?_⟩
    · rw [toNat_high bound]
      exact high_bounds bound
    · rw [toNat_low]
      exact low_bounds above
    · exact rebased.trans (pairValue_split bound).symm

/-- The first character of a sequence of units is determined by them. -/
theorem encodeChar_append_inj {first second : Char} {rest others : List UInt16}
    (same : encodeChar first ++ rest = encodeChar second ++ others) :
    first = second ∧ rest = others := by
  rcases encodeChar_cases first with
    ⟨unit, encoded, notHigh, _, value⟩ | ⟨high, low, encoded, isHighFirst, _, value⟩
  · rcases encodeChar_cases second with
      ⟨unit', encoded', _, _, value'⟩ | ⟨high', low', encoded', isHighSecond, _⟩
    · rw [encoded, encoded'] at same
      obtain ⟨rfl, rfl⟩ := List.cons.inj same
      exact ⟨Char.toNat_inj.mp (value.trans value'.symm), rfl⟩
    · rw [encoded, encoded'] at same
      obtain ⟨rfl, _⟩ := List.cons.inj same
      rw [notHigh] at isHighSecond
      cases isHighSecond
  · rcases encodeChar_cases second with
      ⟨unit', encoded', notHigh, _⟩ | ⟨high', low', encoded', _, _, value'⟩
    · rw [encoded, encoded'] at same
      obtain ⟨rfl, _⟩ := List.cons.inj same
      rw [notHigh] at isHighFirst
      cases isHighFirst
    · rw [encoded, encoded'] at same
      obtain ⟨rfl, tail⟩ := List.cons.inj same
      obtain ⟨rfl, rfl⟩ := List.cons.inj tail
      exact ⟨Char.toNat_inj.mp (value.trans value'.symm), rfl⟩

/-- **Units have at most one reading.** -/
theorem flatMap_encodeChar_inj {characters others : List Char}
    (same : characters.flatMap encodeChar = others.flatMap encodeChar) : characters = others := by
  have filled : ∀ character : Char, encodeChar character ≠ [] := by
    intro character
    rcases encodeChar_cases character with ⟨_, encoded, _⟩ | ⟨_, _, encoded, _⟩
    · rw [encoded]
      exact List.cons_ne_nil _ _
    · rw [encoded]
      exact List.cons_ne_nil _ _
  induction characters generalizing others with
  | nil =>
      cases others with
      | nil => rfl
      | cons other others =>
          rw [List.flatMap_cons] at same
          exact absurd (List.append_eq_nil_iff.mp same.symm).1 (filled other)
  | cons character characters ih =>
      cases others with
      | nil =>
          rw [List.flatMap_cons] at same
          exact absurd (List.append_eq_nil_iff.mp same).1 (filled character)
      | cons other others =>
          rw [List.flatMap_cons, List.flatMap_cons] at same
          obtain ⟨rfl, rest⟩ := encodeChar_append_inj same
          rw [ih rest]

/-- What characters are encoded as is paired. -/
theorem paired_flatMap_encodeChar (characters : List Char) :
    Paired (characters.flatMap encodeChar) := by
  induction characters with
  | nil => exact .nil
  | cons character characters ih =>
      rw [List.flatMap_cons]
      rcases encodeChar_cases character with
        ⟨unit, encoded, notHigh, notLow, _⟩ | ⟨high, low, encoded, isHighFirst, isLowSecond, _⟩
      · rw [encoded]
        exact ih.cons notHigh notLow
      · rw [encoded]
        exact ih.cons_pair isHighFirst isLowSecond

theorem pairValue_pos (high low : UInt16) : 0 < pairValue high low := by
  unfold pairValue
  omega

/-- The unit zero is the code of the character zero only. -/
theorem zero_mem_encodeChar_iff {character : Char} :
    (0 : UInt16) ∈ encodeChar character ↔ character.toNat = 0 := by
  have zeroNoSurrogate : isHigh 0 = false ∧ isLow 0 = false := by decide
  rcases encodeChar_cases character with
    ⟨unit, encoded, _, _, value⟩ | ⟨high, low, encoded, isHighFirst, isLowSecond, value⟩
  · rw [encoded, List.mem_singleton, value, ← UInt16.toNat_inj, eq_comm]
    exact Iff.rfl
  · refine iff_of_false ?_ (value ▸ Nat.ne_of_gt (pairValue_pos high low))
    rw [encoded, List.mem_pair]
    rintro (rfl | rfl)
    · rw [zeroNoSurrogate.1] at isHighFirst
      cases isHighFirst
    · rw [zeroNoSurrogate.2] at isLowSecond
      cases isLowSecond

end Utf16
