import IcuTransport.Capture.Utf8
import IcuTransport.Library.Trace

/-!
# What the UTF-8 check reads

`valid_utf8_bytes` moves an index through a buffer and tests it against the length before it reads.
Here the check is taken turn by turn over a memory, and each read leaves its index in a trace. The
memory has a byte everywhere: what stands behind the buffer could be read, so that it is a property
of the code that it is not. An index is a number without a bound, since a buffer is smaller than the
address space and the sums of the code do not wrap.

The turns compute the check of `Capture.Utf8` on the bytes of the buffer, and every index they read
is below the length (`utf8_check_exact`).
-/

set_option autoImplicit false

namespace IcuTransport.Capture

open Ascii Tracing TurnLoop

/-! ## The code -/

/-- Read the byte at an index. -/
def readByte (memory : ℕ → UInt8) (index : ℕ) : Traced ℕ UInt8 := do
  Traced.emit index
  pure (memory index)

/-- Go on at an index when a test holds, and refuse otherwise. -/
def continueIf (test : Bool) (index : ℕ) : Traced ℕ (Turn ℕ Bool) :=
  pure (if test then .next index else .finished false)

/-- One turn of the loop of `valid_utf8_bytes`. -/
def utf8Turn (memory : ℕ → UInt8) (length index : ℕ) : Traced ℕ (Turn ℕ Bool) :=
  if index < length then do
    let first ← readByte memory index
    if first ≤ 0x7f then pure (.next (index + 1))
    else if 0xc2 ≤ first ∧ first ≤ 0xdf then
      if index + 1 ≥ length then pure (.finished false)
      else do
        let second ← readByte memory (index + 1)
        continueIf (continuation second) (index + 2)
    else if 0xe0 ≤ first ∧ first ≤ 0xef then
      if index + 1 + 1 ≥ length then pure (.finished false)
      else do
        let second ← readByte memory (index + 1)
        let third ← readByte memory (index + 2)
        continueIf (continuation third && secondOfThree first second) (index + 3)
    else if 0xf0 ≤ first ∧ first ≤ 0xf4 then
      if index + 1 + 2 ≥ length then pure (.finished false)
      else do
        let second ← readByte memory (index + 1)
        let third ← readByte memory (index + 2)
        let fourth ← readByte memory (index + 3)
        continueIf (continuation third && continuation fourth && secondOfFour first second)
          (index + 4)
    else pure (.finished false)
  else pure (.finished true)

/-- The check of a buffer of the given length, with the indices it reads. -/
def checkUtf8 (memory : ℕ → UInt8) (length : ℕ) : Option (Traced ℕ (List ℕ × Bool)) :=
  runTraced (utf8Turn memory length) (length + 1) 0

/-! ## The bytes that are left -/

/-- The bytes of a buffer from an index on. -/
def bytesFrom (memory : ℕ → UInt8) (length index : ℕ) : Bytes :=
  (List.range' index (length - index)).map memory

section Turns

variable (memory : ℕ → UInt8) {length index : ℕ}

theorem bytesFrom_of_lt (within : index < length) :
    bytesFrom memory length index = memory index :: bytesFrom memory length (index + 1) := by
  have count : length - index = length - (index + 1) + 1 := by omega
  rw [bytesFrom, count, List.range'_succ, List.map_cons, bytesFrom]

theorem length_bytesFrom : (bytesFrom memory length index).length = length - index := by
  rw [bytesFrom, List.length_map, List.length_range']

theorem bytesFrom_of_le (beyond : length ≤ index) : bytesFrom memory length index = [] := by
  rw [bytesFrom, Nat.sub_eq_zero_of_le beyond]
  rfl

/-! ## One turn -/

variable {memory}

/-- Nothing shorter than three bytes starts with the first byte of three. -/
theorem validUtf8Bytes_three_short {first : UInt8} {rest : Bytes}
    (range : 0xe0 ≤ first ∧ first ≤ 0xef) (short : rest.length < 2) :
    validUtf8Bytes (first :: rest) = false := by
  have above : ¬ first ≤ 0x7f ∧ ¬ (0xc2 ≤ first ∧ first ≤ 0xdf) := by grind
  rcases rest with _ | ⟨second, _ | ⟨third, more⟩⟩
  · simp only [validUtf8Bytes, if_neg above.1, if_neg above.2, if_pos range]
  · simp only [validUtf8Bytes, if_neg above.1, if_neg above.2, if_pos range]
  · simp only [List.length_cons] at short
    omega

/-- Nothing shorter than four bytes starts with the first byte of four. -/
theorem validUtf8Bytes_four_short {first : UInt8} {rest : Bytes}
    (range : 0xf0 ≤ first ∧ first ≤ 0xf4) (short : rest.length < 3) :
    validUtf8Bytes (first :: rest) = false := by
  have above : ¬ first ≤ 0x7f ∧ ¬ (0xc2 ≤ first ∧ first ≤ 0xdf) ∧
      ¬ (0xe0 ≤ first ∧ first ≤ 0xef) := by grind
  rcases rest with _ | ⟨second, _ | ⟨third, _ | ⟨fourth, more⟩⟩⟩
  · simp only [validUtf8Bytes, if_neg above.1, if_neg above.2.1, if_neg above.2.2, if_pos range]
  · simp only [validUtf8Bytes, if_neg above.1, if_neg above.2.1, if_neg above.2.2, if_pos range]
  · simp only [validUtf8Bytes, if_neg above.1, if_neg above.2.1, if_neg above.2.2, if_pos range]
  · simp only [List.length_cons] at short
    omega

/-- What a turn may do: it reads within the buffer, a verdict is that of the check, and going on
leaves the verdict to the bytes that follow. -/
structure TurnChecks (memory : ℕ → UInt8) (length index : ℕ)
    (turn : Traced ℕ (Turn ℕ Bool)) : Prop where
  reads : ∀ read ∈ turn.events, read < length
  verdict : ∀ valid, turn.value = .finished valid →
    validUtf8Bytes (bytesFrom memory length index) = valid
  goesOn : ∀ later, turn.value = .next later → index < later ∧ later ≤ length ∧
    validUtf8Bytes (bytesFrom memory length index) =
      validUtf8Bytes (bytesFrom memory length later)

namespace TurnChecks

theorem refused (invalid : validUtf8Bytes (bytesFrom memory length index) = false) :
    TurnChecks memory length index (pure (.finished false)) := by
  refine ⟨?_, ?_, ?_⟩
  · intro read member
    cases member
  · intro valid finished
    rw [invalid, Turn.finished.inj finished]
  · intro later went
    cases went

/-- A test decides between going on and a refusal. -/
theorem of_continueIf {test : Bool} {later : ℕ} (more : index < later) (within : later ≤ length)
    (same : validUtf8Bytes (bytesFrom memory length index) =
      if test then validUtf8Bytes (bytesFrom memory length later) else false) :
    TurnChecks memory length index (continueIf test later) := by
  cases test with
  | false => exact refused same
  | true =>
      refine ⟨?_, ?_, ?_⟩
      · intro read member
        cases member
      · intro valid finished
        cases finished
      · intro other went
        obtain rfl := Turn.next.inj went
        exact ⟨more, within, same⟩

/-- **A read within the buffer** leaves what follows it to be checked. -/
theorem read_bind {position : ℕ} {next : UInt8 → Traced ℕ (Turn ℕ Bool)}
    (within : position < length)
    (checks : TurnChecks memory length index (next (memory position))) :
    TurnChecks memory length index (readByte memory position >>= next) := by
  refine ⟨?_, checks.verdict, checks.goesOn⟩
  intro read member
  rcases List.mem_cons.mp member with rfl | later
  · exact within
  · exact checks.reads read later

end TurnChecks

section Widths

variable {first : UInt8} (bytes : bytesFrom memory length index =
  first :: bytesFrom memory length (index + 1))

include bytes

/-- The end of a turn on two bytes. -/
theorem TurnChecks.two (range : 0xc2 ≤ first ∧ first ≤ 0xdf) :
    TurnChecks memory length index
      (if index + 1 ≥ length then pure (.finished false)
      else do
        let second ← readByte memory (index + 1)
        continueIf (continuation second) (index + 2)) := by
  have above : ¬ first ≤ 0x7f := by grind
  split
  · rename_i short
    refine .refused ?_
    rw [bytes, bytesFrom_of_le memory short, validUtf8Bytes.eq_def]
    simp only [if_neg above, if_pos range]
  · rename_i room
    refine .read_bind (by omega) (.of_continueIf (by omega) (by omega) ?_)
    rw [bytes, bytesFrom_of_lt memory (by omega), validUtf8Bytes.eq_def]
    simp only [if_neg above, if_pos range]

/-- The end of a turn on three bytes. -/
theorem TurnChecks.three (range : 0xe0 ≤ first ∧ first ≤ 0xef) :
    TurnChecks memory length index
      (if index + 1 + 1 ≥ length then pure (.finished false)
      else do
        let second ← readByte memory (index + 1)
        let third ← readByte memory (index + 2)
        continueIf (continuation third && secondOfThree first second) (index + 3)) := by
  have above : ¬ first ≤ 0x7f ∧ ¬ (0xc2 ≤ first ∧ first ≤ 0xdf) := by grind
  split
  · rename_i short
    have left : (bytesFrom memory length (index + 1)).length < 2 := by
      rw [length_bytesFrom]
      omega
    refine .refused ?_
    rw [bytes]
    exact validUtf8Bytes_three_short range left
  · rename_i room
    refine .read_bind (by omega) (.read_bind (by omega) (.of_continueIf (by omega) (by omega) ?_))
    rw [bytes, bytesFrom_of_lt memory (by omega), bytesFrom_of_lt memory (by omega),
      validUtf8Bytes.eq_def]
    simp only [if_neg above.1, if_neg above.2, if_pos range]

/-- The end of a turn on four bytes. -/
theorem TurnChecks.four (range : 0xf0 ≤ first ∧ first ≤ 0xf4) :
    TurnChecks memory length index
      (if index + 1 + 2 ≥ length then pure (.finished false)
      else do
        let second ← readByte memory (index + 1)
        let third ← readByte memory (index + 2)
        let fourth ← readByte memory (index + 3)
        continueIf (continuation third && continuation fourth && secondOfFour first second)
          (index + 4)) := by
  have above : ¬ first ≤ 0x7f ∧ ¬ (0xc2 ≤ first ∧ first ≤ 0xdf) ∧
      ¬ (0xe0 ≤ first ∧ first ≤ 0xef) := by grind
  split
  · rename_i short
    have left : (bytesFrom memory length (index + 1)).length < 3 := by
      rw [length_bytesFrom]
      omega
    refine .refused ?_
    rw [bytes]
    exact validUtf8Bytes_four_short range left
  · rename_i room
    refine .read_bind (by omega) (.read_bind (by omega) (.read_bind (by omega)
      (.of_continueIf (by omega) (by omega) ?_)))
    rw [bytes, bytesFrom_of_lt memory (by omega), bytesFrom_of_lt memory (by omega),
      bytesFrom_of_lt memory (by omega), validUtf8Bytes.eq_def]
    simp only [if_neg above.1, if_neg above.2.1, if_neg above.2.2, if_pos range]

end Widths

/-- **A turn of the loop makes one step of the check.** -/
theorem utf8Turn_checks : TurnChecks memory length index (utf8Turn memory length index) := by
  unfold utf8Turn
  split
  · rename_i inside
    refine .read_bind inside ?_
    have bytes := bytesFrom_of_lt memory inside
    generalize memory index = first at bytes
    split
    · rename_i range
      have goes : TurnChecks memory length index (continueIf true (index + 1)) := by
        refine .of_continueIf (Nat.lt_succ_self index) inside ?_
        rw [bytes, validUtf8Bytes_one _ range, if_pos rfl]
      exact goes
    · rename_i notOne
      split
      · rename_i range
        exact .two bytes range
      · rename_i notTwo
        split
        · rename_i range
          exact .three bytes range
        · rename_i notThree
          split
          · rename_i range
            exact .four bytes range
          · rename_i notFour
            refine .refused ?_
            rw [bytes, validUtf8Bytes.eq_def]
            simp only [if_neg notOne, if_neg notTwo, if_neg notThree, if_neg notFour]
  · rename_i outside
    have empty := bytesFrom_of_le memory (Nat.not_lt.mp outside)
    refine ⟨?_, ?_, ?_⟩
    · intro read member
      cases member
    · intro valid finished
      rw [empty, ← Turn.finished.inj finished]
      rfl
    · intro later went
      cases went

end Turns

/-! ## The whole check -/

/-- **The turns from an index on check the bytes from there on.** -/
theorem runTraced_utf8Turn (memory : ℕ → UInt8) {length index fuel : ℕ}
    (enough : length - index < fuel) :
    ∃ visits reads, runTraced (utf8Turn memory length) fuel index =
        some ⟨(visits, validUtf8Bytes (bytesFrom memory length index)), reads⟩ ∧
      ∀ read ∈ reads, read < length := by
  induction fuel generalizing index with
  | zero => omega
  | succ fuel ih =>
      have checks : TurnChecks memory length index (utf8Turn memory length index) :=
        utf8Turn_checks
      cases outcome : (utf8Turn memory length index).value with
      | finished valid =>
          refine ⟨[index], (utf8Turn memory length index).events, ?_, checks.reads⟩
          rw [checks.verdict valid outcome]
          simp only [runTraced, outcome]
      | next later =>
          obtain ⟨more, below, same⟩ := checks.goesOn later outcome
          obtain ⟨visits, reads, ran, bounded⟩ := ih (by omega : length - later < fuel)
          refine ⟨index :: visits, (utf8Turn memory length index).events ++ reads, ?_, ?_⟩
          · rw [same]
            simp only [runTraced, outcome, ran, Option.map_some]
          · intro read member
            rcases List.mem_append.mp member with here | later
            · exact checks.reads read here
            · exact bounded read later

/-- **The check decides UTF-8 exactly, and reads nothing behind its buffer.** For every memory and
every length the check comes to an end; it accepts exactly when the bytes of the buffer are the
encodings of some characters, and every index it has read is below the length. -/
theorem utf8_check_exact (memory : ℕ → UInt8) (length : ℕ) :
    ∃ visits valid reads, checkUtf8 memory length = some ⟨(visits, valid), reads⟩ ∧
      (valid = true ↔ ∃ characters : List Char,
        (List.range length).map memory = characters.flatMap String.utf8EncodeChar) ∧
      ∀ index ∈ reads, index < length := by
  obtain ⟨visits, reads, ran, bounded⟩ := runTraced_utf8Turn memory
    (by omega : length - 0 < length + 1)
  have whole : bytesFrom memory length 0 = (List.range length).map memory := by
    rw [bytesFrom, Nat.sub_zero, ← List.range_eq_range']
  rw [whole] at ran
  exact ⟨visits, _, reads, ran, validUtf8Bytes_iff, bounded⟩

end IcuTransport.Capture
