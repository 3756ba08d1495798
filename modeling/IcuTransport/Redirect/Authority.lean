import IcuTransport.Redirect.Editing

/-!
# Authorities read and written

The authority of a location is cut at its last colon into a host and a port. The authority that a
request names is written the other way round, without the port when that is the default one of the
scheme.

`parseAuthority_eq_some_iff` says which texts are authorities and what they stand for. Writing and
reading again gives the same host and port, except where a host holds a colon and its port is not
written: then the end of the host is read as the port (`parseAuthority_host_ne`).
-/

set_option autoImplicit false

namespace IcuTransport.Redirect

open Ascii TextScan Wire

/-! ## Port numbers -/

theorem parsePortDigits_eq_some_iff {value : ℕ} {text : Bytes} {port : ℕ} (bound : value ≤ 65535) :
    parsePortDigits value text = some port ↔
      (∀ byte ∈ text, isDigit byte = true) ∧ valueFrom value text = port ∧ 1 ≤ port ∧
        port ≤ 65535 := by
  induction text generalizing value with
  | nil =>
      simp only [parsePortDigits, valueFrom_nil, List.not_mem_nil, false_implies, implies_true,
        true_and, Option.ite_none_left_eq_some, Option.some.injEq, not_lt]
      constructor
      · rintro ⟨positive, rfl⟩
        exact ⟨rfl, positive, bound⟩
      · rintro ⟨rfl, positive, _⟩
        exact ⟨positive, rfl⟩
  | cons byte rest ih =>
      rw [parsePortDigits, valueFrom_cons, List.forall_mem_cons]
      by_cases digit : isDigit byte = true
      · by_cases large : value * 10 + digitValue byte > 65535
        · have grows := le_valueFrom rest (value * 10 + digitValue byte)
          simp only [digit, Bool.true_eq_false, if_false, if_pos large, reduceCtorEq, true_and,
            false_iff, not_and]
          intro _ same _
          omega
        · simp only [digit, Bool.true_eq_false, if_false, if_neg large, true_and]
          exact ih (by omega)
      · simp [digit]

/-- **A port is a numeral from 1 to 65535.** -/
theorem parsePortText_eq_some_iff {text : Bytes} {port : ℕ} :
    parsePortText text = some port ↔
      IsNumeral text ∧ numeralValue text = port ∧ 1 ≤ port ∧ port ≤ 65535 := by
  unfold parsePortText IsNumeral numeralValue
  split
  · rename_i empty
    simp [empty]
  · rename_i filled
    rw [parsePortDigits_eq_some_iff (Nat.zero_le _)]
    simp only [ne_eq, filled, not_false_eq_true, true_and]

theorem ofNat_port_inj {first second : ℕ} (small : first ≤ 65535) (small' : second ≤ 65535) :
    Int32.ofNat first = Int32.ofNat second ↔ first = second := by
  constructor
  · intro same
    have values := congrArg Int32.toInt same
    rw [toInt_ofNat_port small, toInt_ofNat_port small'] at values
    exact Int.ofNat.inj values
  · rintro rfl
    rfl

/-! ## What an authority stands for -/

/-- The host an authority names: what stands before its last colon. -/
def authorityHost (text : Bytes) : Bytes :=
  match splitLast colon text with
  | some (host, _) => host
  | none => text

/-- The port an authority names: what stands after its last colon. -/
def authorityPort (text : Bytes) : Option ℕ :=
  (splitLast colon text).map fun parts => numeralValue parts.2

theorem authorityHost_of_cut {text host digits : Bytes}
    (cut : splitLast colon text = some (host, digits)) : authorityHost text = host := by
  rw [authorityHost, cut]

theorem authorityPort_of_cut {text host digits : Bytes}
    (cut : splitLast colon text = some (host, digits)) :
    authorityPort text = some (numeralValue digits) := by
  rw [authorityPort, cut, Option.map_some]

theorem authorityHost_of_bare {text : Bytes} (bare : splitLast colon text = none) :
    authorityHost text = text := by
  rw [authorityHost, bare]

theorem authorityPort_of_bare {text : Bytes} (bare : splitLast colon text = none) :
    authorityPort text = none := by
  rw [authorityPort, bare, Option.map_none]

/-- The default port of a scheme. -/
def schemePort (useTls : Bool) : ℕ := if useTls then 443 else 80

/-- A text that can be read as an authority. -/
structure AuthorityText (text : Bytes) : Prop where
  filled : 1 ≤ text.length
  short : text.length ≤ 1023
  noAt : atSign ∉ text
  noBracket : closeBracket ∉ text
  unbracketed : text.head? ≠ some openBracket
  port : ∀ host digits, splitLast colon text = some (host, digits) →
    host ≠ [] ∧ IsNumeral digits ∧ 1 ≤ numeralValue digits ∧ numeralValue digits ≤ 65535

theorem authorityText_iff {text : Bytes} :
    AuthorityText text ↔
      ¬ (text.length = 0 ∨ text.length ≥ maxHostBytes ∨ atSign ∈ text ∨
          text.head? = some openBracket ∨ closeBracket ∈ text) ∧
        ∀ host digits, splitLast colon text = some (host, digits) →
          host ≠ [] ∧ IsNumeral digits ∧ 1 ≤ numeralValue digits ∧ numeralValue digits ≤ 65535 := by
  have limit : maxHostBytes = 1024 := rfl
  constructor
  · rintro ⟨filled, short, noAt, noBracket, unbracketed, port⟩
    refine ⟨?_, port⟩
    rintro (empty | long | at' | opened | closed)
    · omega
    · omega
    · exact noAt at'
    · exact unbracketed opened
    · exact noBracket closed
  · rintro ⟨refused, port⟩
    simp only [not_or] at refused
    obtain ⟨filled, short, noAt, unbracketed, noBracket⟩ := refused
    exact ⟨by omega, by omega, noAt, noBracket, unbracketed, port⟩

/-- **Which texts are authorities**, and the host and port they stand for. -/
theorem parseAuthority_eq_some_iff {text : Bytes} {defaultPort port : Int32}
    {host : CharArray maxHostBytes} :
    parseAuthority text defaultPort = some (host, port) ↔
      AuthorityText text ∧ host.bytes = authorityHost text ∧
        port = ((authorityPort text).map Int32.ofNat).getD defaultPort := by
  rw [authorityText_iff]
  unfold parseAuthority authorityHost authorityPort
  split
  · rename_i refused
    constructor
    · intro parsed
      cases parsed
    · rintro ⟨⟨accepted, _⟩, _⟩
      exact absurd refused accepted
  · rename_i accepted
    cases cut : splitLast colon text with
    | none =>
        simp only [Option.map_eq_some_iff, Prod.mk.injEq, CharArray.store_eq_some_iff, accepted,
          not_false_eq_true, reduceCtorEq, false_implies, implies_true, true_and, and_true,
          Option.map_none, Option.getD_none]
        constructor
        · rintro ⟨stored, same, rfl, rfl⟩
          exact ⟨same, rfl⟩
        · rintro ⟨same, rfl⟩
          exact ⟨host, same, rfl, rfl⟩
    | some parts =>
        obtain ⟨before, digits⟩ := parts
        have one : ∀ property : Bytes → Bytes → Prop,
            (∀ first second, some (before, digits) = some (first, second) → property first second) ↔
              property before digits := by
          intro property
          constructor
          · exact fun holds => holds before digits rfl
          · rintro holds _ _ ⟨⟩
            exact holds
        by_cases empty : before = []
        · simp [empty]
        · simp only [empty, if_false, Option.bind_eq_some_iff, Option.map_eq_some_iff,
            Prod.mk.injEq, CharArray.store_eq_some_iff, parsePortText_eq_some_iff, accepted, one,
            not_false_eq_true, ne_eq, true_and, Option.map_some, Option.getD_some]
          constructor
          · rintro ⟨stored, same, number, ⟨numeral, rfl, low, high⟩, rfl, rfl⟩
            exact ⟨⟨numeral, low, high⟩, same, rfl⟩
          · rintro ⟨⟨numeral, low, high⟩, same, rfl⟩
            exact ⟨host, same, _, ⟨numeral, rfl, low, high⟩, rfl, rfl⟩

/-! ## Writing and reading again -/

section RoundTrip

variable {useTls : Bool} {text : Bytes} {host : CharArray maxHostBytes} {port : Int32}
  {target : CharArray maxTargetBytes}

/-- The authority written for a host of the default port. -/
theorem endpointAuthority_default (filled : host.bytes ≠ [])
    (default : port = Int32.ofNat (schemePort useTls)) :
    endpointAuthority ⟨useTls, port, host, target⟩ authorityCapacity = some host.bytes := by
  have fits := host.fits
  have positive := List.length_pos_of_ne_nil filled
  have same : port = if useTls then 443 else 80 := by
    rw [default]
    cases useTls <;> rfl
  have wide : maxHostBytes ≤ authorityCapacity := Nat.le_add_right _ _
  simp only [endpointAuthority, if_pos same]
  exact if_pos ⟨positive, by omega⟩

/-- The authority written for a host of another port. -/
theorem endpointAuthority_other {number : ℕ} (small : number ≤ 65535)
    (other : number ≠ schemePort useTls) :
    endpointAuthority ⟨useTls, Int32.ofNat number, host, target⟩ authorityCapacity =
      some (host.bytes ++ colon :: decimal number) := by
  have fits := host.fits
  have different : ¬ Int32.ofNat number = if useTls then 443 else 80 := by
    intro same
    refine other ((ofNat_port_inj small ?_).mp (same.trans ?_))
    · cases useTls <;> decide
    · cases useTls <;> rfl
  have digits : (decimal number).length ≤ 5 := length_decimal_le (by decide) (by omega)
  have written : decimalInt (Int32.ofNat number).toInt = decimal number := by
    rw [toInt_ofNat_port small]
    rfl
  have wide : authorityCapacity = maxHostBytes + 16 := rfl
  simp only [endpointAuthority, if_neg different, written]
  refine if_pos ?_
  rw [List.length_append, List.length_cons]
  omega

/-- A host with a colon is not read back. -/
theorem parseAuthority_host_ne {defaultPort : Int32} {number : Int32} {text : Bytes}
    (member : colon ∈ text) (parsed : parseAuthority text defaultPort = some (host, number)) :
    host.bytes ≠ text := by
  obtain ⟨_, read, _⟩ := parseAuthority_eq_some_iff.mp parsed
  cases cut : splitLast colon text with
  | none => exact absurd member (splitLast_eq_none_iff.mp cut)
  | some parts =>
      obtain ⟨before, digits⟩ := parts
      intro same
      rw [authorityHost_of_cut cut] at read
      have lengths :=
        congrArg List.length ((same.symm.trans read).symm.trans (splitLast_eq_some cut).1)
      simp only [List.length_append, List.length_cons] at lengths
      omega

/-- The host of an authority is one itself, when it holds no colon. -/
theorem AuthorityText.of_host {digits : Bytes} {before : Bytes} (authority : AuthorityText text)
    (cut : splitLast colon text = some (before, digits)) (noColon : colon ∉ before) :
    AuthorityText before := by
  obtain ⟨split, _⟩ := splitLast_eq_some cut
  have within : before <+: text := ⟨colon :: digits, split.symm⟩
  have filled : before ≠ [] := (authority.port before digits cut).1
  refine ⟨List.length_pos_of_ne_nil filled, within.length_le.trans authority.short,
    fun member => authority.noAt (within.subset member),
    fun member => authority.noBracket (within.subset member), ?_, ?_⟩
  · intro opened
    refine authority.unbracketed ?_
    rw [split, List.head?_append_of_ne_nil before filled, opened]
  · intro host digits' cut'
    rw [splitLast_eq_none_iff.mpr noColon] at cut'
    cases cut'

theorem splitLast_decimal (before : Bytes) (number : ℕ) :
    splitLast colon (before ++ colon :: decimal number) = some (before, decimal number) :=
  splitLast_append_cons
    (fun member => absurd ((isNumeral_decimal number).2 colon member) (by decide))
    before

/-- The host of an authority with its port, written anew, is an authority. -/
theorem AuthorityText.of_port {digits before : Bytes} (authority : AuthorityText text)
    (cut : splitLast colon text = some (before, digits)) :
    AuthorityText (before ++ colon :: decimal (numeralValue digits)) := by
  obtain ⟨filled, numeral, low, high⟩ := authority.port before digits cut
  obtain ⟨split, _⟩ := splitLast_eq_some cut
  have within : before <+: text := ⟨colon :: digits, split.symm⟩
  have shorter : (decimal (numeralValue digits)).length ≤ digits.length := by
    refine length_decimal_le (List.length_pos_of_ne_nil numeral.1) ?_
    simpa [numeralValue] using valueFrom_lt numeral.2 0
  have lengths := congrArg List.length split
  have short := authority.short
  rw [List.length_append, List.length_cons] at lengths
  have absent : ∀ byte : UInt8, isDigit byte = false → byte ≠ colon → byte ∉ text →
      byte ∉ before ++ colon :: decimal (numeralValue digits) := by
    intro byte noDigit noColon noByte member
    rcases List.mem_append.mp member with inHost | inPort
    · exact noByte (within.subset inHost)
    · rcases List.mem_cons.mp inPort with same | inDigits
      · exact noColon same
      · rw [(isNumeral_decimal _).2 byte inDigits] at noDigit
        cases noDigit
  refine ⟨?_, ?_, absent atSign rfl (by decide) authority.noAt,
    absent closeBracket rfl (by decide) authority.noBracket, ?_, ?_⟩
  · rw [List.length_append, List.length_cons]
    omega
  · rw [List.length_append, List.length_cons]
    omega
  · rw [List.head?_append_of_ne_nil before filled]
    intro opened
    refine authority.unbracketed ?_
    rw [split, List.head?_append_of_ne_nil before filled, opened]
  · intro host digits' cut'
    rw [splitLast_decimal] at cut'
    obtain ⟨rfl, rfl⟩ := Prod.mk.inj (Option.some.inj cut')
    rw [numeralValue_decimal]
    exact ⟨filled, isNumeral_decimal _, low, high⟩

/-- Without a colon an authority is its host. -/
theorem roundTrip_of_bare (bare : splitLast colon text = none)
    (accepted : parseAuthority text (Int32.ofNat (schemePort useTls)) = some (host, port)) :
    endpointAuthority ⟨useTls, port, host, target⟩ authorityCapacity = some text := by
  obtain ⟨authority, hostBytes, ports⟩ := parseAuthority_eq_some_iff.mp accepted
  rw [authorityPort_of_bare bare, Option.map_none, Option.getD_none] at ports
  rw [authorityHost_of_bare bare] at hostBytes
  rw [← hostBytes]
  exact endpointAuthority_default (hostBytes ▸ List.ne_nil_of_length_pos authority.filled) ports

/-- What is read of an authority with a colon. -/
theorem parseAuthority_of_cut {before digits : Bytes} {defaultPort : Int32}
    (accepted : parseAuthority text defaultPort = some (host, port))
    (cut : splitLast colon text = some (before, digits)) :
    AuthorityText text ∧ host.bytes = before ∧ port = Int32.ofNat (numeralValue digits) := by
  obtain ⟨authority, hostBytes, ports⟩ := parseAuthority_eq_some_iff.mp accepted
  rw [authorityHost_of_cut cut] at hostBytes
  rw [authorityPort_of_cut cut, Option.map_some, Option.getD_some] at ports
  exact ⟨authority, hostBytes, ports⟩

/-- A port that is the default one is left out. -/
theorem endpointAuthority_of_defaultPort {before digits : Bytes}
    (accepted : parseAuthority text (Int32.ofNat (schemePort useTls)) = some (host, port))
    (cut : splitLast colon text = some (before, digits))
    (default : numeralValue digits = schemePort useTls) :
    endpointAuthority ⟨useTls, port, host, target⟩ authorityCapacity = some before := by
  obtain ⟨authority, hostBytes, ports⟩ := parseAuthority_of_cut accepted cut
  have filled := (authority.port before digits cut).1
  rw [← hostBytes] at filled ⊢
  exact endpointAuthority_default filled (ports.trans (congrArg Int32.ofNat default))

/-- A host without a colon is read back when the default port was left out. -/
theorem parseAuthority_of_defaultPort {before digits : Bytes}
    (accepted : parseAuthority text (Int32.ofNat (schemePort useTls)) = some (host, port))
    (cut : splitLast colon text = some (before, digits))
    (default : numeralValue digits = schemePort useTls) (noColon : colon ∉ before) :
    parseAuthority before (Int32.ofNat (schemePort useTls)) = some (host, port) := by
  obtain ⟨authority, hostBytes, ports⟩ := parseAuthority_of_cut accepted cut
  have bare : splitLast colon before = none := splitLast_eq_none_iff.mpr noColon
  refine parseAuthority_eq_some_iff.mpr ⟨authority.of_host cut noColon, ?_, ?_⟩
  · rw [hostBytes, authorityHost_of_bare bare]
  · rw [authorityPort_of_bare bare, Option.map_none, Option.getD_none, ports, default]

/-- A port other than the default one is written, and read back. -/
theorem roundTrip_of_otherPort {before digits : Bytes}
    (accepted : parseAuthority text (Int32.ofNat (schemePort useTls)) = some (host, port))
    (cut : splitLast colon text = some (before, digits))
    (other : numeralValue digits ≠ schemePort useTls) :
    ∃ written, endpointAuthority ⟨useTls, port, host, target⟩ authorityCapacity = some written ∧
      parseAuthority written (Int32.ofNat (schemePort useTls)) = some (host, port) := by
  obtain ⟨authority, hostBytes, ports⟩ := parseAuthority_of_cut accepted cut
  obtain ⟨_, _, _, high⟩ := authority.port before digits cut
  refine ⟨before ++ colon :: decimal (numeralValue digits), ?_,
    parseAuthority_eq_some_iff.mpr ⟨authority.of_port cut, ?_, ?_⟩⟩
  · rw [ports, ← hostBytes]
    exact endpointAuthority_other high other
  · rw [hostBytes, authorityHost_of_cut (splitLast_decimal _ _)]
  · rw [authorityPort_of_cut (splitLast_decimal _ _), Option.map_some, Option.getD_some,
      numeralValue_decimal, ports]

end RoundTrip

/-- **When an authority survives being written.** The authority written for a host and port that
were read is read as that host and port again exactly when the text had at most one colon, or a port
other than the default one of the scheme. -/
theorem authority_round_trip_iff (useTls : Bool) (text : Bytes) (host : CharArray maxHostBytes)
    (port : Int32) (target : CharArray maxTargetBytes)
    (accepted : parseAuthority text (Int32.ofNat (schemePort useTls)) = some (host, port)) :
    (∃ written, endpointAuthority ⟨useTls, port, host, target⟩ authorityCapacity = some written ∧
        parseAuthority written (Int32.ofNat (schemePort useTls)) = some (host, port)) ↔
      text.count colon ≤ 1 ∨ authorityPort text ≠ some (schemePort useTls) := by
  cases cut : splitLast colon text with
  | none =>
      have absent : text.count colon = 0 :=
        List.count_eq_zero.mpr (splitLast_eq_none_iff.mp cut)
      refine ⟨fun _ => Or.inl (by omega), fun _ => ?_⟩
      exact ⟨text, roundTrip_of_bare cut accepted, accepted⟩
  | some parts =>
      obtain ⟨before, digits⟩ := parts
      rw [authorityPort_of_cut cut]
      have count : text.count colon = before.count colon + 1 := by
        obtain ⟨split, absent⟩ := splitLast_eq_some cut
        rw [split, List.count_append, List.count_cons_self, List.count_eq_zero.mpr absent]
      by_cases default : numeralValue digits = schemePort useTls
      · have written : endpointAuthority ⟨useTls, port, host, target⟩ authorityCapacity =
            some before := endpointAuthority_of_defaultPort accepted cut default
        by_cases member : colon ∈ before
        · -- the port is left out, and the end of the host is taken for one
          have hostBytes : host.bytes = before := (parseAuthority_of_cut accepted cut).2.1
          have several := List.count_pos_iff.mpr member
          constructor
          · rintro ⟨other, found, parsed⟩
            obtain rfl := Option.some.inj (written.symm.trans found)
            exact absurd hostBytes (parseAuthority_host_ne member parsed)
          · rintro (few | differs)
            · omega
            · exact absurd (congrArg some default) differs
        · refine ⟨fun _ => Or.inl (by rw [count, List.count_eq_zero.mpr member]), fun _ => ?_⟩
          exact ⟨before, written, parseAuthority_of_defaultPort accepted cut default member⟩
      · refine ⟨fun _ => Or.inr (fun same => default (Option.some.inj same)), fun _ => ?_⟩
        exact roundTrip_of_otherPort accepted cut default

theorem authority_round_trip_iff_written_port :
    parseAuthority (ascii "a:b:8080") (Int32.ofNat (schemePort false)) =
        some (⟨ascii "a:b", by decide⟩, 8080) ∧
      ∃ written,
        endpointAuthority ⟨false, 8080, ⟨ascii "a:b", by decide⟩, ⟨ascii "/", by decide⟩⟩
            authorityCapacity = some written ∧
          parseAuthority written (Int32.ofNat (schemePort false)) =
            some (⟨ascii "a:b", by decide⟩, 8080) := by
  have accepted : parseAuthority (ascii "a:b:8080") (Int32.ofNat (schemePort false)) =
      some (⟨ascii "a:b", by decide⟩, 8080) := by decide
  exact ⟨accepted, (authority_round_trip_iff false (ascii "a:b:8080") ⟨ascii "a:b", by decide⟩ 8080
    ⟨ascii "/", by decide⟩ accepted).mpr (Or.inr (by decide))⟩

/-- The host `a:1` at the default port is written like the host `a` at port 1. -/
theorem authority_misread :
    parseAuthority (ascii "a:1:80") 80 = some (⟨ascii "a:1", by decide⟩, 80) ∧
      endpointAuthority ⟨false, 80, ⟨ascii "a:1", by decide⟩, ⟨ascii "/", by decide⟩⟩
        authorityCapacity = some (ascii "a:1") ∧
      parseAuthority (ascii "a:1") 80 = some (⟨ascii "a", by decide⟩, 1) ∧
      ¬ (∃ written,
        endpointAuthority ⟨false, 80, ⟨ascii "a:1", by decide⟩, ⟨ascii "/", by decide⟩⟩
            authorityCapacity = some written ∧
          parseAuthority written 80 = some (⟨ascii "a:1", by decide⟩, 80)) := by
  have written : endpointAuthority
      ⟨false, 80, ⟨ascii "a:1", by decide⟩, ⟨ascii "/", by decide⟩⟩ authorityCapacity =
        some (ascii "a:1") := by decide
  refine ⟨by decide, written, by decide, ?_⟩
  rintro ⟨other, found, parsed⟩
  obtain rfl := Option.some.inj (written.symm.trans found)
  exact absurd parsed (by decide)

end IcuTransport.Redirect
