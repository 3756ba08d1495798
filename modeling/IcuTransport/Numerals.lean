import IcuTransport.Connect.ProxyGrammar
import IcuTransport.Library.Trace
import IcuTransport.Redirect.Authority

/-!
# The arithmetic of the numeral readers

Three loops of the program read numerals into machine integers: a port of a Location, a port of a
proxy, and a declared length. They test their bounds in different places. The first multiplies and
then compares, the second compares with 6553 and then multiplies, and the third divides before it
multiplies.

Here the loops appear with every intermediate result of their arithmetic as an event, over numbers
without a bound. Without the events they are the readers that the rest of the development is about
(`value_parsePortTextTraced`, `value_proxyPortTraced`, `value_parseContentLengthTraced`). The events
stay within the machine types, so nothing is lost by computing in these. The two readers of ports
accept the same texts, and all three accept exactly the numerals in their ranges
(`port_readers_agree`, `content_length_exact`).
-/

set_option autoImplicit false

namespace IcuTransport.Numerals

open Ascii Tracing Wire Redirect Connect

/-! ## The loops -/

/-- A round of `parse_port_text`: the bound is tested after the multiplication. -/
def portRound (value : ℕ) (byte : UInt8) : Traced ℕ (Option ℕ) :=
  if isDigit byte = false then pure none
  else do
    Traced.emit (value * 10)
    Traced.emit (value * 10 + digitValue byte)
    pure (if value * 10 + digitValue byte > 65535 then none
      else some (value * 10 + digitValue byte))

/-- `parse_port_text`, with its intermediate results. -/
def parsePortTextTraced (text : Bytes) : Traced ℕ (Option ℕ) :=
  if text = [] then pure none
  else
    (Traced.foldRounds portRound 0 text).andThen fun value =>
      pure (if value < 1 then none else some value)

/-- A round of the port loop of `proxy_configuration`: the bound is tested before the
multiplication. -/
def proxyPortRound (port : ℕ) (letter : UInt8) : Traced ℕ (Option ℕ) :=
  if isDigit letter = false ∨ port > 6553 then pure none
  else do
    Traced.emit (port * 10)
    Traced.emit (port * 10 + digitValue letter)
    pure (some (port * 10 + digitValue letter))

/-- The port loop of `proxy_configuration` on a text after a colon, with its intermediate
results. -/
def proxyPortTraced (text : Bytes) : Traced ℕ (Option ℕ) :=
  if text = [] then pure none
  else
    (Traced.foldRounds proxyPortRound 0 text).andThen fun port =>
      pure (if port < 1 ∨ port > 65535 then none else some port)

/-- A round of `parse_content_length`, in integers: what is left to the largest number is divided
before the multiplication. -/
def lengthRound (value : ℤ) (byte : UInt8) : Traced ℤ (Option ℤ) :=
  if isDigit byte = false then pure none
  else do
    let digit : ℤ := byte.toNat - 48
    Traced.emit (longLongMax - digit)
    Traced.emit ((longLongMax - digit) / 10)
    if value > (longLongMax - digit) / 10 then pure none
    else do
      Traced.emit (value * 10)
      Traced.emit (value * 10 + digit)
      pure (some (value * 10 + digit))

/-- `parse_content_length`, with its intermediate results. A refusal is -1. -/
def parseContentLengthTraced (text : Bytes) : Traced ℤ ℤ :=
  if text = [] then pure (-1)
  else do
    let read ← Traced.foldRounds lengthRound 0 text
    pure (read.getD (-1))

/-! ## Without the events -/

theorem value_portRounds (value : ℕ) (text : Bytes) :
    (Traced.foldRounds portRound value text).value.bind
        (fun last => if last < 1 then none else some last) = parsePortDigits value text := by
  induction text generalizing value with
  | nil => rfl
  | cons byte rest ih =>
      rw [Traced.value_foldRounds_cons, parsePortDigits, portRound]
      split
      · rfl
      · simp only [Traced.value_bind, Traced.value_pure]
        split
        · rfl
        · exact ih _

/-- **The traced reader of a port is the reader of a port.** -/
theorem value_parsePortTextTraced (text : Bytes) :
    (parsePortTextTraced text).value = parsePortText text := by
  unfold parsePortTextTraced parsePortText
  split
  · rfl
  · rw [Traced.value_andThen]
    exact value_portRounds 0 text

theorem value_proxyPortRounds (port : ℕ) (text : Bytes) :
    (Traced.foldRounds proxyPortRound port text).value.bind
        (fun last => if last < 1 ∨ last > 65535 then none else some last) =
      proxyPortDigits port text := by
  induction text generalizing port with
  | nil => rfl
  | cons letter rest ih =>
      rw [Traced.value_foldRounds_cons, proxyPortDigits, proxyPortRound]
      split
      · rfl
      · exact ih _

/-- **The traced loop over the digits of a proxy port is that loop.** -/
theorem value_proxyPortTraced (text : Bytes) :
    (proxyPortTraced text).value = proxyPort (some text) := by
  cases text with
  | nil => rfl
  | cons letter rest =>
      rw [proxyPortTraced, if_neg (List.cons_ne_nil _ _), Traced.value_andThen]
      exact value_proxyPortRounds 0 (letter :: rest)

/-- The value of a digit, as an integer. -/
theorem digitValue_cast {byte : UInt8} (digit : isDigit byte = true) :
    (byte.toNat : ℤ) - 48 = digitValue byte := by
  simp only [isDigit, Bool.and_eq_true, decide_eq_true_eq, UInt8.le_iff_toNat_le] at digit
  have low : 48 ≤ byte.toNat := digit.1
  unfold digitValue
  omega

/-- The test of the code is the same in integers. -/
theorem large_cast_iff {value digit : ℕ} (small : digit ≤ 9) :
    ((value : ℤ) > ((longLongMax : ℤ) - digit) / 10) ↔ value > (longLongMax - digit) / 10 := by
  unfold longLongMax
  omega

theorem value_lengthRounds (value : ℕ) (text : Bytes) :
    (Traced.foldRounds lengthRound (value : ℤ) text).value =
      (parseLengthDigits value text).map Int.ofNat := by
  induction text generalizing value with
  | nil => rfl
  | cons byte rest ih =>
      rw [Traced.value_foldRounds_cons, parseLengthDigits_cons, lengthRound]
      by_cases digit : isDigit byte = true
      · have sum : (value : ℤ) * 10 + digitValue byte =
          ((value * 10 + digitValue byte : ℕ) : ℤ) := by
          push_cast
          rfl
        simp only [digit, Bool.true_eq_false, if_false, Traced.value_bind, digitValue_cast digit,
          large_cast_iff (digitValue_le_nine digit)]
        split
        · rfl
        · rw [← ih, ← sum]
          rfl
      · rw [Bool.not_eq_true] at digit
        rw [if_pos digit, if_pos digit]
        rfl

/-- **The traced reader of a length is the reader of a length**, with -1 for a refusal. -/
theorem value_parseContentLengthTraced (text : Bytes) :
    (parseContentLengthTraced text).value =
    ((parseContentLength text).map Int.ofNat).getD (-1) := by
  unfold parseContentLengthTraced parseContentLength
  split
  · rfl
  · rw [Traced.value_bind, Traced.value_pure]
    exact congrArg (Option.getD · (-1)) (value_lengthRounds 0 text)

/-! ## Intermediate results -/

/-- A round of `parse_port_text` starts from at most 65535. -/
theorem portRound_bounded (value : ℕ) (byte : UInt8) (bound : value ≤ 65535) :
    Traced.Emits (· ≤ 655359) (portRound value byte) ∧
      ∀ later, (portRound value byte).value = some later → later ≤ 65535 := by
  unfold portRound
  split
  · refine ⟨.pure _, ?_⟩
    intro later found
    cases found
  · rename_i notOther
    have small := digitValue_le_nine (Bool.of_not_eq_false notOther)
    constructor
    · refine .emit_bind ?_ (.emit_bind ?_ (.pure _))
      · show value * 10 ≤ 655359
        omega
      · show value * 10 + digitValue byte ≤ 655359
        omega
    · intro later found
      simp only [Traced.value_bind, Traced.value_pure] at found
      split at found
      · cases found
      · obtain rfl := Option.some.inj found
        omega

/-- A round of the proxy loop that goes on starts from at most 6553. -/
theorem proxyPortRound_bounded (port : ℕ) (letter : UInt8) :
    Traced.Emits (· ≤ 65539) (proxyPortRound port letter) := by
  unfold proxyPortRound
  split
  · exact .pure _
  · rename_i goes
    obtain ⟨notOther, small⟩ := not_or.mp goes
    have digit := digitValue_le_nine (Bool.of_not_eq_false notOther)
    refine .emit_bind ?_ (.emit_bind ?_ (.pure _))
    · show port * 10 ≤ 65539
      omega
    · show port * 10 + digitValue letter ≤ 65539
      omega

/-- An integer that a `long long` holds without a sign. -/
def InLongLong (number : ℤ) : Prop := 0 ≤ number ∧ number ≤ 2 ^ 63 - 1

/-- A round of `parse_content_length` leaves no `long long`. -/
theorem lengthRound_bounded (value : ℤ) (byte : UInt8) (bound : InLongLong value) :
    Traced.Emits InLongLong (lengthRound value byte) ∧
      ∀ later, (lengthRound value byte).value = some later → InLongLong later := by
  unfold lengthRound
  split
  · refine ⟨.pure _, ?_⟩
    intro later found
    cases found
  · rename_i notOther
    have small := digitValue_le_nine (Bool.of_not_eq_false notOther)
    rw [digitValue_cast (Bool.of_not_eq_false notOther)]
    generalize digitValue byte = digit at small
    have room : InLongLong (longLongMax - digit) := by
      unfold InLongLong longLongMax
      omega
    have tenth : InLongLong ((longLongMax - digit) / 10) := by
      unfold InLongLong longLongMax
      omega
    by_cases large : value > (longLongMax - digit) / 10
    · simp only [if_pos large]
      refine ⟨.emit_bind room (.emit_bind tenth (.pure _)), ?_⟩
      intro later found
      cases found
    · have product : InLongLong (value * 10) := by
        unfold InLongLong longLongMax at *
        omega
      have sum : InLongLong (value * 10 + digit) := by
        unfold InLongLong longLongMax at *
        omega
      simp only [if_neg large]
      constructor
      · exact .emit_bind room (.emit_bind tenth (.emit_bind product (.emit_bind sum (.pure _))))
      · intro later found
        obtain rfl := Option.some.inj found
        exact sum

theorem emits_parsePortTextTraced (text : Bytes) :
    Traced.Emits (· ≤ 655359) (parsePortTextTraced text) := by
  unfold parsePortTextTraced
  split
  · exact .pure _
  · exact (Traced.foldRounds_induction portRound_bounded (Nat.zero_le _) text).1.andThen
      fun _ _ => .pure _

theorem emits_proxyPortTraced (text : Bytes) :
    Traced.Emits (· ≤ 65539) (proxyPortTraced text) := by
  have step : ∀ port letter, True → Traced.Emits (· ≤ 65539) (proxyPortRound port letter) ∧
      ∀ later, (proxyPortRound port letter).value = some later → True :=
    fun port letter _ => ⟨proxyPortRound_bounded port letter, fun _ _ => trivial⟩
  unfold proxyPortTraced
  split
  · exact .pure _
  · exact (Traced.foldRounds_induction step trivial text).1.andThen fun _ _ => .pure _

theorem emits_parseContentLengthTraced (text : Bytes) :
    Traced.Emits InLongLong (parseContentLengthTraced text) := by
  have start : InLongLong 0 := ⟨le_rfl, by decide⟩
  unfold parseContentLengthTraced
  split
  · exact .pure _
  · exact .bind (Traced.foldRounds_induction lengthRound_bounded start text).1 (.pure _)

/-! ## The readers -/

/-- **The two readers of ports agree and do not overflow.** A text is read as a port by
`parse_port_text` exactly when the loop of `proxy_configuration` reads it as the same port, and
both do so exactly for the numerals from 1 to 65535, with any number of zeros before them. No
intermediate result is above 655359 in the first and above 65539 in the second. -/
theorem port_readers_agree (text : Bytes) :
    (∀ port, (parsePortTextTraced text).value = some port ↔
      (proxyPortTraced text).value = some port) ∧
      (∀ port, (parsePortTextTraced text).value = some port ↔
        IsNumeral text ∧ numeralValue text = port ∧ 1 ≤ port ∧ port ≤ 65535) ∧
      (∀ result ∈ (parsePortTextTraced text).events, result ≤ 655359) ∧
      ∀ result ∈ (proxyPortTraced text).events, result ≤ 65539 := by
  have first : ∀ port, (parsePortTextTraced text).value = some port ↔
      IsNumeral text ∧ numeralValue text = port ∧ 1 ≤ port ∧ port ≤ 65535 := by
    intro port
    rw [value_parsePortTextTraced]
    exact parsePortText_eq_some_iff
  have second : ∀ port, (proxyPortTraced text).value = some port ↔
      IsNumeral text ∧ numeralValue text = port ∧ 1 ≤ port ∧ port ≤ 65535 := by
    intro port
    rw [value_proxyPortTraced, proxyPort_eq_some_iff]
    simp
  refine ⟨?_, first, emits_parsePortTextTraced text, emits_proxyPortTraced text⟩
  intro port
  exact (first port).trans (second port).symm

/-- **The reader of lengths is exact over 64 bits.** A text is read as a number exactly when it is
a numeral of that number and the number is at most 2^63 - 1. Every other text gives -1. No
subtraction, division, multiplication or addition on the way leaves the range from 0 to 2^63 - 1. -/
theorem content_length_exact (text : Bytes) :
    (∀ number : ℤ, 0 ≤ number →
      ((parseContentLengthTraced text).value = number ↔
        IsNumeral text ∧ (numeralValue text : ℤ) = number ∧ number ≤ 2 ^ 63 - 1)) ∧
      (¬ (IsNumeral text ∧ (numeralValue text : ℤ) ≤ 2 ^ 63 - 1) →
        (parseContentLengthTraced text).value = -1) ∧
      ∀ result ∈ (parseContentLengthTraced text).events, 0 ≤ result ∧ result ≤ 2 ^ 63 - 1 := by
  have largest : (longLongMax : ℤ) = 2 ^ 63 - 1 := by decide
  rw [value_parseContentLengthTraced]
  refine ⟨?_, ?_, emits_parseContentLengthTraced text⟩
  · intro number positive
    cases read : parseContentLength text with
    | none =>
        constructor
        · intro same
          rw [← same] at positive
          exact absurd positive (by decide)
        · rintro ⟨numeral, value, bound⟩
          have fits : numeralValue text ≤ longLongMax := by omega
          have accepted := parseContentLength_eq_some_iff.mpr ⟨numeral, rfl, fits⟩
          rw [read] at accepted
          cases accepted
    | some length =>
        obtain ⟨numeral, rfl, bound⟩ := parseContentLength_eq_some_iff.mp read
        constructor
        · rintro rfl
          exact ⟨numeral, rfl, by rw [← largest]; exact Int.ofNat_le.mpr bound⟩
        · rintro ⟨_, same, _⟩
          exact same
  · intro other
    cases read : parseContentLength text with
    | none => rfl
    | some length =>
        obtain ⟨numeral, rfl, bound⟩ := parseContentLength_eq_some_iff.mp read
        exact absurd ⟨numeral, by rw [← largest]; exact Int.ofNat_le.mpr bound⟩ other

end IcuTransport.Numerals
