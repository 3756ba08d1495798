import IcuTransport.Wire.HeaderScan
import Mathlib.Data.List.GetD

/-!
# Header lines and what the scanners say of them

A header line has a name, which is what precedes its first colon, compared without regard to the
case of letters, and a value, which is what follows it, without a CR at the end and without blanks
around it. The scanners of a head never build these; this module says what they compute in these
terms.

* Counting by position is counting by name, for a name that has no colon (`headerCount_eq`).
* The value copied is the value of the first line of the name before any empty line
  (`copyHeaderValue_eq`, `firstValue_eq_some_iff`).
* The reading of a length is the value of a numeral that fits (`parseContentLength_eq_some_iff`).
-/

set_option autoImplicit false

namespace IcuTransport.Wire

open Ascii TextScan

/-! ## Names and values -/

/-- What precedes the first colon of a line. -/
def lineName (line : Bytes) : Option Bytes := (splitFirst colon line).map Prod.fst

/-- The line has the name, in letters of any case. -/
def Named (name line : Bytes) : Prop := (lineName line).map foldCase = some (foldCase name)

instance (name line : Bytes) : Decidable (Named name line) :=
  inferInstanceAs (Decidable ((lineName line).map foldCase = some (foldCase name)))

/-- What follows the first colon of a line, without its CR and without blanks around it. -/
def lineValue (line : Bytes) : Bytes :=
  match splitFirst colon line with
  | some (_, value) => trimBlanks (dropTrailingCr value)
  | none => []

theorem named_iff {name line : Bytes} :
    Named name line ↔
      ∃ written value, splitFirst colon line = some (written, value) ∧
        foldCase written = foldCase name := by
  simp only [Named, lineName, Option.map_map, Option.map_eq_some_iff, Function.comp_apply,
    Prod.exists]

/-- A test by position is a test by name. -/
theorem headerLineNamed_iff {name : Bytes} (noColon : colon ∉ name) (line : Bytes) :
    headerLineNamed line name = true ↔ Named name line := by
  simp only [headerLineNamed, startsIgnoringCase, Bool.and_eq_true, decide_eq_true_eq, named_iff]
  constructor
  · rintro ⟨⟨longer, mark⟩, same⟩
    have cut : line = line.take name.length ++ colon :: line.drop (name.length + 1) := by
      rw [← mark, List.getD_eq_getElem _ _ longer, List.cons_getElem_drop_succ,
        List.take_append_drop]
    refine ⟨line.take name.length, line.drop (name.length + 1), ?_, same⟩
    refine splitFirst_eq_some_iff.mpr ⟨cut, ?_⟩
    rw [← mem_foldCase_iff (by decide), same, mem_foldCase_iff (by decide)]
    exact noColon
  · rintro ⟨written, value, found, same⟩
    obtain ⟨rfl, _⟩ := splitFirst_eq_some_iff.mp found
    have length : written.length = name.length := by
      rw [← length_foldCase written, same, length_foldCase]
    rw [← length, List.take_left, List.getD_append_right _ _ _ _ le_rfl]
    simp [same]

/-! ## The lines of a head -/

/-- The LF-terminated lines of a head after its first. -/
def headerLines (head : Bytes) : List Bytes := (cutAll (splitFirst lf) head).drop 1

/-- Every line of the text has its LF. -/
def Terminated (text : Bytes) : Prop := text = [] ∨ text.getLast? = some lf

theorem Terminated.rest {line rest : Bytes} (terminated : Terminated (line ++ lf :: rest)) :
    Terminated rest := by
  rcases terminated with empty | last
  · simp at empty
  · cases rest with
    | nil => exact Or.inl rfl
    | cons byte rest =>
        right
        simpa using last

/-- In a text of terminated lines both ways of cutting lines agree. -/
theorem separated_of_terminated {text : Bytes} (terminated : Terminated text) :
    separated lf text = cutAll (splitFirst lf) text := by
  induction length : text.length using Nat.strong_induction_on generalizing text with
  | _ length ih =>
      cases found : splitFirst lf text with
      | none =>
          rcases terminated with rfl | last
          · rfl
          · exact absurd (List.mem_of_getLast? last) (splitFirst_eq_none_iff.mp found)
      | some parts =>
          obtain ⟨line, rest⟩ := parts
          obtain ⟨rfl, _⟩ := splitFirst_eq_some_iff.mp found
          rw [separated, cutAll_of_some (cutPiece_shortens lf) (cutPiece_of_split found),
            cutAll_of_some (splitFirst_shortens lf) found]
          have less := splitFirst_shortens lf _ _ _ found
          exact congrArg (line :: ·) (ih rest.length (by omega) terminated.rest rfl)

/-! ## Counting -/

theorem headerCountLoop_eq {name : Bytes} (noColon : colon ∉ name) {budget : ℕ} {cursor : Bytes}
    (enough : cursor.length ≤ budget) :
    headerCountLoop name budget cursor =
      ((cutAll (splitFirst lf) cursor).filter (Named name ·)).length := by
  induction budget generalizing cursor with
  | zero =>
      rw [List.length_eq_zero_iff.mp (Nat.le_zero.mp enough)]
      rfl
  | succ budget ih =>
      cases found : splitFirst lf cursor with
      | none =>
          rw [cutAll_of_none found]
          simp only [headerCountLoop, found, List.filter_nil, List.length_nil]
      | some parts =>
          obtain ⟨line, rest⟩ := parts
          have less := splitFirst_shortens lf _ _ _ found
          rw [cutAll_of_some (splitFirst_shortens lf) found]
          simp only [headerCountLoop, found, ih (by omega : rest.length ≤ budget),
            headerLineNamed_iff noColon, List.filter_cons, decide_eq_true_eq]
          split
          · rw [List.length_cons, Nat.add_comm]
          · rw [Nat.zero_add]

/-- **The count of a name is the number of its lines.** -/
theorem headerCount_eq {name : Bytes} (noColon : colon ∉ name) (head : Bytes) :
    headerCount head name = ((headerLines head).filter (Named name ·)).length := by
  unfold headerCount headerLines
  cases found : splitFirst lf head with
  | none => rw [cutAll_of_none found]; rfl
  | some parts =>
      obtain ⟨line, cursor⟩ := parts
      rw [cutAll_of_some (splitFirst_shortens lf) found, List.drop_one, List.tail_cons]
      exact headerCountLoop_eq noColon le_rfl

/-! ## Copying -/

/-- The value of the first line of a name, unless an empty line comes before it. -/
def firstValue (name : Bytes) : List Bytes → Option Bytes
  | [] => none
  | line :: rest =>
      if dropTrailingCr line = [] then none
      else if Named name line then some (lineValue line)
      else firstValue name rest

/-- **The first value**: its line has the name, and no line before it is empty or has the name. -/
theorem firstValue_eq_some_iff {name value : Bytes} {lines : List Bytes} :
    firstValue name lines = some value ↔
      ∃ before line after, lines = before ++ line :: after ∧ Named name line ∧
        lineValue line = value ∧ dropTrailingCr line ≠ [] ∧
        ∀ earlier ∈ before, dropTrailingCr earlier ≠ [] ∧ ¬ Named name earlier := by
  induction lines with
  | nil =>
      simp only [firstValue, List.nil_eq, List.append_eq_nil_iff, List.cons_ne_nil]
      constructor
      · intro absurdity
        cases absurdity
      · rintro ⟨_, _, _, ⟨_, absurdity⟩, _⟩
        exact absurdity.elim
  | cons first rest ih =>
      constructor
      · intro found
        unfold firstValue at found
        split at found
        · cases found
        · rename_i nonempty
          split at found
          · rename_i named
            exact ⟨[], first, rest, rfl, named, Option.some.inj found, nonempty, by simp⟩
          · rename_i other
            obtain ⟨before, line, after, rfl, named, equal, filled, earlier⟩ := ih.mp found
            refine ⟨first :: before, line, after, rfl, named, equal, filled, ?_⟩
            intro candidate member
            rcases List.mem_cons.mp member with rfl | within
            · exact ⟨nonempty, other⟩
            · exact earlier candidate within
      · rintro ⟨before, line, after, split, named, equal, filled, earlier⟩
        cases before with
        | nil =>
            obtain ⟨rfl, rfl⟩ := List.cons.inj split
            rw [firstValue, if_neg filled, if_pos named, equal]
        | cons head before =>
            obtain ⟨rfl, rfl⟩ := List.cons.inj split
            obtain ⟨nonempty, other⟩ := earlier first (by simp)
            rw [firstValue, if_neg nonempty, if_neg other]
            exact ih.mpr ⟨before, line, after, rfl, named, equal, filled,
              fun candidate member => earlier candidate (List.mem_cons_of_mem _ member)⟩

theorem dropTrailingCr_append_cons {before after : Bytes} {byte : UInt8} (other : byte ≠ cr) :
    dropTrailingCr (before ++ byte :: after) = before ++ byte :: dropTrailingCr after := by
  unfold dropTrailingCr
  cases after with
  | nil => simp [other]
  | cons head rest =>
      have last : (before ++ byte :: head :: rest).getLast? = (head :: rest).getLast? := by
        simp [List.getLast?_cons]
      rw [last]
      split
      · simp
      · rfl

/-- Removing the CR of a line changes neither its name nor its value. -/
theorem splitFirst_dropTrailingCr (line : Bytes) :
    splitFirst colon (dropTrailingCr line) =
      (splitFirst colon line).map fun parts => (parts.1, dropTrailingCr parts.2) := by
  cases found : splitFirst colon line with
  | none =>
      rw [Option.map_none, splitFirst_eq_none_iff]
      have absent := splitFirst_eq_none_iff.mp found
      unfold dropTrailingCr
      split
      · exact fun member => absent (List.dropLast_subset _ member)
      · exact absent
  | some parts =>
      obtain ⟨rfl, absent⟩ := splitFirst_eq_some_iff.mp found
      rw [dropTrailingCr_append_cons (by decide)]
      exact splitFirst_append_cons absent _

/-- What `copy_header_value` does with a value: an empty one is not copied. -/
def storeValue (capacity : ℕ) (value : Bytes) : Option (CharArray capacity) :=
  if value = [] then none else CharArray.store capacity value

/-- The test of `copy_header_value` on a line whose colon it has found. -/
theorem named_of_split {wanted line name value : Bytes}
    (found : splitFirst colon line = some (name, value)) :
    (name.length = wanted.length ∧ startsIgnoringCase wanted (dropTrailingCr line) = true) ↔
      Named wanted line := by
  have split := (splitFirst_eq_some_iff.mp found).1
  have trimmed : dropTrailingCr line = name ++ colon :: dropTrailingCr value := by
    rw [split, dropTrailingCr_append_cons (by decide)]
  simp only [trimmed, startsIgnoringCase, decide_eq_true_eq, named_iff, found, Option.some.injEq,
    Prod.mk.injEq]
  constructor
  · rintro ⟨length, same⟩
    rw [← length, List.take_left] at same
    exact ⟨name, value, ⟨rfl, rfl⟩, same⟩
  · rintro ⟨_, _, ⟨rfl, rfl⟩, same⟩
    have length : name.length = wanted.length := by
      rw [← length_foldCase name, same, length_foldCase]
    rw [← length, List.take_left]
    exact ⟨rfl, same⟩

theorem copyHeaderLoop_eq {wanted : Bytes} {capacity budget : ℕ} {cursor : Bytes}
    (enough : cursor.length ≤ budget) :
    copyHeaderLoop wanted capacity budget cursor =
      (firstValue wanted (separated lf cursor)).bind (storeValue capacity) := by
  induction budget generalizing cursor with
  | zero =>
      rw [List.length_eq_zero_iff.mp (Nat.le_zero.mp enough)]
      rfl
  | succ budget ih =>
      by_cases empty : cursor = []
      · subst empty
        rfl
      · cases next : nextPiece lf cursor with
        | mk line rest =>
            have cut : cutPiece lf cursor = some (line, rest) := (if_neg empty).trans (by rw [next])
            have less := cutPiece_shortens lf cursor line rest cut
            rw [copyHeaderLoop, if_neg empty, separated, cutAll_of_some (cutPiece_shortens lf) cut,
              firstValue]
            simp only [next, splitFirst_dropTrailingCr, ih (by omega : rest.length ≤ budget)]
            split
            · rfl
            · cases found : splitFirst colon line with
              | none =>
                  have other : ¬ Named wanted line := by simp [named_iff, found]
                  simp only [Option.map_none, if_neg other, separated]
              | some parts =>
                  obtain ⟨name, value⟩ := parts
                  simp only [Option.map_some, named_of_split found, separated]
                  split
                  · simp only [lineValue, found, Option.bind_some, storeValue]
                  · rfl

/-- **The copied value** is that of the first line of the name, when it is not empty and fits. -/
theorem copyHeaderValue_eq {head wanted : Bytes} {capacity : ℕ} (terminated : Terminated head) :
    copyHeaderValue head wanted capacity =
      (firstValue wanted (headerLines head)).bind (storeValue capacity) := by
  unfold copyHeaderValue headerLines
  cases found : splitFirst lf head with
  | none => rw [cutAll_of_none found]; rfl
  | some parts =>
      obtain ⟨line, cursor⟩ := parts
      obtain ⟨rfl, _⟩ := splitFirst_eq_some_iff.mp found
      rw [cutAll_of_some (splitFirst_shortens lf) found, List.drop_one, List.tail_cons,
        ← separated_of_terminated terminated.rest]
      exact copyHeaderLoop_eq le_rfl

theorem storeValue_eq_some_iff {capacity : ℕ} {value : Bytes} {array : CharArray capacity} :
    storeValue capacity value = some array ↔ array.bytes = value ∧ value ≠ [] := by
  unfold storeValue
  split
  · rename_i empty
    simp [empty]
  · rename_i nonempty
    rw [CharArray.store_eq_some_iff]
    exact ⟨fun equal => ⟨equal, nonempty⟩, fun holds => holds.1⟩

theorem lineValue_subset {line : Bytes} : lineValue line ⊆ line := by
  intro byte member
  unfold lineValue at member
  cases found : splitFirst colon line with
  | none =>
      rw [found] at member
      cases member
  | some parts =>
      obtain ⟨name, value⟩ := parts
      obtain ⟨rfl, _⟩ := splitFirst_eq_some_iff.mp found
      simp only [found, trimBlanks] at member
      have inValue : byte ∈ dropTrailingCr value :=
        (List.dropWhile_sublist _).subset ((List.rdropWhile_prefix _ _).subset member)
      refine List.mem_append_right name (List.mem_cons_of_mem colon ?_)
      unfold dropTrailingCr at inValue
      split at inValue
      · exact List.mem_of_mem_dropLast inValue
      · exact inValue

/-- A copied value holds no LF. -/
theorem lf_not_mem_of_copyHeaderValue {head name : Bytes} {capacity : ℕ}
    {value : CharArray capacity}
    (terminated : Terminated head) (copied : copyHeaderValue head name capacity = some value) :
    lf ∉ value.bytes := by
  rw [copyHeaderValue_eq terminated] at copied
  obtain ⟨text, first, stored⟩ := Option.bind_eq_some_iff.mp copied
  obtain ⟨before, line, after, split, _, rfl, _⟩ := firstValue_eq_some_iff.mp first
  rw [(storeValue_eq_some_iff.mp stored).1]
  have member : line ∈ headerLines head := split ▸ List.mem_append_right before List.mem_cons_self
  exact fun holds => not_mem_of_mem_cutAll (List.mem_of_mem_drop member) (lineValue_subset holds)

/-! ## Declared lengths -/

theorem parseLengthDigits_eq_some_iff {value : ℕ} {text : Bytes} {number : ℕ}
    (bound : value ≤ longLongMax) :
    parseLengthDigits value text = some number ↔
      (∀ byte ∈ text, isDigit byte = true) ∧ valueFrom value text = number ∧
        number ≤ longLongMax := by
  induction text generalizing value with
  | nil =>
      simp only [parseLengthDigits_nil, Option.some.injEq, List.not_mem_nil, false_implies,
        implies_true, true_and, valueFrom_nil]
      constructor
      · rintro rfl
        exact ⟨rfl, bound⟩
      · exact fun holds => holds.1
  | cons byte rest ih =>
      rw [parseLengthDigits_cons, valueFrom_cons]
      by_cases digit : isDigit byte = true
      · have small := digitValue_le_nine digit
        have guard : value > (longLongMax - digitValue byte) / 10 ↔
            longLongMax < value * 10 + digitValue byte := by
          unfold longLongMax at *
          omega
        simp only [digit, guard, List.mem_cons, forall_eq_or_imp, true_and, Bool.true_eq_false,
          if_false]
        split
        · rename_i large
          constructor
          · intro absurdity
            cases absurdity
          · rintro ⟨_, rfl, within⟩
            have grows := le_valueFrom rest (value * 10 + digitValue byte)
            omega
        · exact ih (by omega)
      · simp [digit]

/-- **A length is read exactly from a numeral that fits a `long long`.** -/
theorem parseContentLength_eq_some_iff {text : Bytes} {number : ℕ} :
    parseContentLength text = some number ↔
      IsNumeral text ∧ numeralValue text = number ∧ number ≤ longLongMax := by
  unfold parseContentLength IsNumeral numeralValue
  split
  · rename_i empty
    simp [empty]
  · rename_i nonempty
    rw [parseLengthDigits_eq_some_iff (Nat.zero_le _)]
    simp only [ne_eq, nonempty, not_false_eq_true, true_and]

end IcuTransport.Wire
