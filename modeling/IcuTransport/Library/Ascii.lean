import Mathlib.Data.Nat.Digits.Lemmas
import Mathlib.Tactic.IntervalCases
import Mathlib.Data.List.DropRight
import IcuTransport.Library.Search

/-!
# Bytes read as ASCII text

A text is a list of bytes. This module fixes the few classes of bytes that a parser of
network text asks about (digits, blanks, visible characters), comparison that ignores the
case of ASCII letters, decimal numerals in both directions, and the part of a byte string
that a reader of C strings sees.
-/

set_option autoImplicit false

namespace Ascii

/-- A byte string. -/
abbrev Bytes := List UInt8

/-- The bytes of a literal. -/
def ascii (literal : String) : Bytes := literal.toList.map fun letter => UInt8.ofNat letter.toNat

/-- The bytes that structure a text: the NUL, the tab, the ends of lines and the space. -/
abbrev nul : UInt8 := 0

abbrev tab : UInt8 := 9

abbrev lf : UInt8 := 10

abbrev cr : UInt8 := 13

abbrev space : UInt8 := 32

/-- The punctuation of header lines and of URLs. -/
abbrev hash : UInt8 := 35

abbrev slash : UInt8 := 47

abbrev colon : UInt8 := 58

abbrev question : UInt8 := 63

abbrev atSign : UInt8 := 64

abbrev openBracket : UInt8 := 91

abbrev closeBracket : UInt8 := 93

/-- The end of a line on the wire. -/
def crlf : Bytes := [cr, lf]

/-! ## Classes of bytes -/

/-- An ASCII digit, as `isdigit` answers in the C locale. -/
def isDigit (byte : UInt8) : Bool := 48 ≤ byte && byte ≤ 57

/-- A space or a horizontal tab. -/
def isBlank (byte : UInt8) : Bool := byte = space || byte = tab

/-- A printing ASCII character other than the space. -/
def isVisible (byte : UInt8) : Bool := 32 < byte && byte < 127

/-- A text of visible characters. -/
def Visible (text : Bytes) : Prop := ∀ byte ∈ text, isVisible byte = true

instance (text : Bytes) : Decidable (Visible text) :=
  List.decidableBAll (fun byte => isVisible byte = true) text

theorem Visible.append {first second : Bytes} (left : Visible first) (right : Visible second) :
    Visible (first ++ second) := by
  intro byte member
  rcases List.mem_append.mp member with inFirst | inSecond
  · exact left byte inFirst
  · exact right byte inSecond

theorem Visible.sublist {part text : Bytes} (visible : Visible text) (within : part.Sublist text) :
    Visible part :=
  fun byte member => visible byte (within.subset member)

theorem Visible.not_mem {text : Bytes} (visible : Visible text) {byte : UInt8}
    (hidden : isVisible byte = false) : byte ∉ text := by
  intro member
  rw [visible byte member] at hidden
  cases hidden

/-! ## C strings and trimming -/

/-- What a reader of C strings sees of a buffer: the bytes before the first NUL. -/
def cString (buffer : Bytes) : Bytes := buffer.takeWhile (· ≠ nul)

/-- A C string is the whole buffer exactly when that holds no NUL. -/
theorem cString_eq_self_iff {buffer : Bytes} : cString buffer = buffer ↔ nul ∉ buffer := by
  rw [cString, List.takeWhile_eq_self_iff]
  constructor
  · intro other member
    exact absurd (other nul member) (by decide)
  · intro absent byte member
    rw [decide_eq_true_eq]
    rintro rfl
    exact absent member

/-- A terminator after a text does not change what is seen of it. -/
theorem cString_terminated (text : Bytes) : cString (text ++ [nul]) = cString text :=
  TextScan.takeWhile_concat (by decide) text

/-- A text with its terminator is seen whole exactly when it holds no NUL. -/
theorem length_cString_terminated_iff {text : Bytes} :
    (cString (text ++ [nul])).length = text.length ↔ nul ∉ text := by
  rw [cString_terminated, ← cString_eq_self_iff]
  constructor
  · intro same
    exact (List.takeWhile_prefix _).eq_of_length same
  · intro whole
    rw [whole]

/-- A `char` array that holds a text and its terminator. -/
structure CharArray (capacity : ℕ) where
  bytes : Bytes
  fits : bytes.length < capacity
  deriving DecidableEq, Repr

namespace CharArray

variable {capacity : ℕ}

/-- Copy a text into an array when it leaves room for the terminator. -/
def store (capacity : ℕ) (text : Bytes) : Option (CharArray capacity) :=
  if fits : text.length < capacity then some ⟨text, fits⟩ else none

/-- The text a reader of C strings sees in the array. -/
def text (array : CharArray capacity) : Bytes := cString array.bytes

theorem bytes_inj {first second : CharArray capacity} :
    first.bytes = second.bytes ↔ first = second := by
  cases first
  cases second
  rw [mk.injEq]

theorem store_eq_some_iff {text : Bytes} {array : CharArray capacity} :
    store capacity text = some array ↔ array.bytes = text := by
  unfold store
  constructor
  · intro stored
    split at stored
    · rw [← Option.some.inj stored]
    · cases stored
  · intro equal
    subst equal
    rw [dif_pos array.fits]

end CharArray

/-- A text without the blanks at its two ends. -/
def trimBlanks (text : Bytes) : Bytes := (text.dropWhile isBlank).rdropWhile isBlank

/-! ## Comparison that ignores the case of letters -/

/-- The lower-case form of an ASCII letter; every other byte is itself. -/
def toLower (byte : UInt8) : UInt8 := if 65 ≤ byte ∧ byte ≤ 90 then byte + 32 else byte

/-- A text with its letters in lower case. -/
def foldCase (text : Bytes) : Bytes := text.map toLower

/-- The text starts with the given word, ignoring the case of letters. -/
def startsIgnoringCase (word text : Bytes) : Bool :=
  foldCase (text.take word.length) = foldCase word

@[simp] theorem length_foldCase (text : Bytes) : (foldCase text).length = text.length := by
  simp [foldCase]

/-- Lower-casing neither makes nor loses a byte that is no letter. -/
theorem toLower_eq_iff {byte other : UInt8} (noLetter : other < 65 ∨ 122 < other) :
    toLower byte = other ↔ byte = other := by
  unfold toLower
  grind

theorem mem_foldCase_iff {byte : UInt8} (noLetter : byte < 65 ∨ 122 < byte) {text : Bytes} :
    byte ∈ foldCase text ↔ byte ∈ text := by
  simp only [foldCase, List.mem_map, toLower_eq_iff noLetter]
  exact ⟨fun ⟨_, member, equal⟩ => equal ▸ member, fun member => ⟨byte, member, rfl⟩⟩

/-- A text starts with a word when its beginning differs from the word in case only. -/
theorem startsIgnoringCase_iff {word text : Bytes} :
    startsIgnoringCase word text = true ↔
      ∃ start rest, text = start ++ rest ∧ foldCase start = foldCase word := by
  rw [startsIgnoringCase, decide_eq_true_eq]
  constructor
  · intro same
    exact ⟨text.take word.length, text.drop word.length, (List.take_append_drop _ _).symm, same⟩
  · rintro ⟨start, rest, rfl, same⟩
    have length : start.length = word.length := by
      rw [← length_foldCase start, same, length_foldCase]
    rw [← length, List.take_left, same]

/-- Lower-casing changes no text without letters into another. -/
theorem foldCase_eq_iff {word text : Bytes}
    (noLetter : word.all (fun byte => byte < 65 || 122 < byte) = true) :
    foldCase text = word ↔ text = word := by
  induction word generalizing text with
  | nil => exact List.map_eq_nil_iff
  | cons first rest ih =>
      rw [List.all_cons, Bool.and_eq_true, Bool.or_eq_true, decide_eq_true_eq,
        decide_eq_true_eq] at noLetter
      cases text with
      | nil => simp [foldCase]
      | cons byte others =>
          have here : toLower byte = first ↔ byte = first := toLower_eq_iff noLetter.1
          have later : others.map toLower = rest ↔ others = rest := ih noLetter.2
          rw [foldCase, List.map_cons, List.cons.injEq, List.cons.injEq, here, later]

/-! ## Decimal numerals -/

/-- The numeral of a natural number. -/
def decimal (number : ℕ) : Bytes :=
  if number = 0 then [48]
  else (Nat.digits 10 number).reverse.map fun digit => UInt8.ofNat (48 + digit)

/-- The numeral of an integer, with a minus sign when it is negative. -/
def decimalInt : ℤ → Bytes
  | .ofNat number => decimal number
  | .negSucc number => 45 :: decimal (number + 1)

theorem visible_decimal (number : ℕ) : Visible (decimal number) := by
  unfold decimal
  split
  · decide
  · intro byte member
    obtain ⟨digit, isDigit, rfl⟩ := List.mem_map.mp member
    have small : digit < 10 := Nat.digits_lt_base (by decide) (List.mem_reverse.mp isDigit)
    interval_cases digit <;> decide

theorem visible_decimalInt (number : ℤ) : Visible (decimalInt number) := by
  cases number with
  | ofNat number => exact visible_decimal number
  | negSucc number => exact Visible.append (by decide : Visible [45]) (visible_decimal (number + 1))

theorem length_decimal_le {number count : ℕ} (positive : 0 < count) (small : number < 10 ^ count) :
    (decimal number).length ≤ count := by
  unfold decimal
  split
  · exact positive
  · rw [List.length_map, List.length_reverse]
    exact (Nat.digits_length_le_iff (by decide) number).mpr small

theorem length_decimalInt_le {number : ℤ} {count : ℕ} (positive : 0 < count)
    (small : number.natAbs < 10 ^ count) : (decimalInt number).length ≤ count + 1 := by
  cases number with
  | ofNat number => exact (length_decimal_le positive small).trans (Nat.le_succ count)
  | negSucc number => exact Nat.succ_le_succ (length_decimal_le positive small)

/-- The value of a digit. -/
def digitValue (byte : UInt8) : ℕ := byte.toNat - 48

/-- The value of a numeral read after digits of the given value. -/
def valueFrom (value : ℕ) (text : Bytes) : ℕ :=
  text.foldl (fun value byte => value * 10 + digitValue byte) value

theorem valueFrom_nil (value : ℕ) : valueFrom value [] = value := rfl

theorem valueFrom_cons (value : ℕ) (byte : UInt8) (rest : Bytes) :
    valueFrom value (byte :: rest) = valueFrom (value * 10 + digitValue byte) rest := by
  unfold valueFrom
  rw [List.foldl_cons]

/-- A non-empty text of digits. -/
def IsNumeral (text : Bytes) : Prop := text ≠ [] ∧ ∀ byte ∈ text, isDigit byte = true

instance (text : Bytes) : Decidable (IsNumeral text) :=
  have := List.decidableBAll (fun byte => isDigit byte = true) text
  instDecidableAnd

/-- The value of a text of digits. -/
def numeralValue (text : Bytes) : ℕ := valueFrom 0 text

theorem decimal_of_pos {number : ℕ} (positive : number ≠ 0) :
    decimal number = (Nat.digits 10 number).reverse.map fun digit => UInt8.ofNat (48 + digit) :=
  if_neg positive

theorem isNumeral_decimal (number : ℕ) : IsNumeral (decimal number) := by
  by_cases zero : number = 0
  · subst zero
    decide
  · rw [decimal_of_pos zero]
    refine ⟨?_, fun byte member => ?_⟩
    · simpa [Nat.digits_eq_nil_iff_eq_zero] using zero
    · obtain ⟨digit, isDigit, rfl⟩ := List.mem_map.mp member
      have small : digit < 10 := Nat.digits_lt_base (by decide) (List.mem_reverse.mp isDigit)
      interval_cases digit <;> decide

theorem digitValue_ofNat {digit : ℕ} (small : digit < 10) :
    digitValue (UInt8.ofNat (48 + digit)) = digit := by
  interval_cases digit <;> rfl

theorem digitValue_le_nine {byte : UInt8} (digit : isDigit byte = true) : digitValue byte ≤ 9 := by
  simp only [isDigit, Bool.and_eq_true, decide_eq_true_eq, UInt8.le_iff_toNat_le] at digit
  unfold digitValue
  have high : byte.toNat ≤ 57 := digit.2
  omega

/-- Digits after a value leave it below the next power of ten. -/
theorem valueFrom_lt {text : Bytes} (digits : ∀ byte ∈ text, isDigit byte = true) (value : ℕ) :
    valueFrom value text < (value + 1) * 10 ^ text.length := by
  induction text generalizing value with
  | nil => simp [valueFrom_nil]
  | cons byte rest ih =>
      have small := digitValue_le_nine (digits byte List.mem_cons_self)
      have later := ih (fun other member => digits other (List.mem_cons_of_mem byte member))
        (value * 10 + digitValue byte)
      rw [valueFrom_cons, List.length_cons, pow_succ']
      refine lt_of_lt_of_le later ?_
      rw [← mul_assoc]
      exact Nat.mul_le_mul_right _ (by omega)

/-- **The numeral of a number denotes it.** -/
theorem numeralValue_decimal (number : ℕ) : numeralValue (decimal number) = number := by
  by_cases zero : number = 0
  · subst zero
    rfl
  · have value : ∀ digits : List ℕ, (∀ digit ∈ digits, digit < 10) →
        valueFrom 0 (digits.reverse.map fun digit => UInt8.ofNat (48 + digit)) =
          Nat.ofDigits 10 digits := by
      intro digits small
      unfold valueFrom
      induction digits with
      | nil => rfl
      | cons digit digits ih =>
          rw [List.reverse_cons, List.map_append, List.foldl_append,
            ih fun other member => small other (List.mem_cons_of_mem digit member)]
          simp only [List.map_cons, List.map_nil, List.foldl_cons, List.foldl_nil,
            digitValue_ofNat (small digit List.mem_cons_self), Nat.ofDigits_cons]
          omega
    rw [numeralValue, decimal_of_pos zero,
      value _ fun digit member => Nat.digits_lt_base (by decide) member, Nat.ofDigits_digits]

theorem length_decimal_three {number : ℕ} (low : 100 ≤ number) (high : number < 1000) :
    (decimal number).length = 3 := by
  have upper : (Nat.digits 10 number).length ≤ 3 :=
    (Nat.digits_length_le_iff (by decide) _).mpr high
  have lower : ¬ (Nat.digits 10 number).length ≤ 2 := fun short =>
    absurd ((Nat.digits_length_le_iff (by decide) _).mp short) (by omega)
  rw [decimal_of_pos (by omega), List.length_map, List.length_reverse]
  omega

theorem le_valueFrom (text : Bytes) (value : ℕ) : value ≤ valueFrom value text := by
  induction text generalizing value with
  | nil => exact le_rfl
  | cons byte rest ih =>
      rw [valueFrom_cons]
      exact le_trans (by omega) (ih (value * 10 + digitValue byte))

end Ascii
