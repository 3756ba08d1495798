import IcuTransport.Android.Strings
import IcuTransport.Library.Trace

/-!
# The two bridges from Java

A request comes from Java as strings with lengths, and the transport takes the host and the head as
C strings, which end at their first NUL. Two bridges stand between. `sendRequestFromJava` embeds
the one of `android/jni_transport.c`, which converts the strings itself, and `send` the one of
`native/android_jni.c`, which asks `String.getBytes` for their bytes. What `getBytes` returns and
what the transport answers are parameters. The trace of a bridge is its calls of the transport.

The second bridge refuses a NUL in the host or the head, and it hands over the whole strings. The
first one has no such check. It hands over the whole strings exactly when it makes no call or these
two hold no NUL (`bridges_hand_over_iff`).
-/

set_option autoImplicit false

namespace IcuTransport.Android

open Ascii Capture Utf16 Tracing

/-! ## Requests and calls -/

/-- A request as Java hands it over. A string is null or has code units. -/
structure JavaRequest where
  useTls : Bool
  host : Option (List UInt16)
  port : Int32
  head : Option (List UInt16)
  body : Option (List UInt16)
  bodyLength : Int32
  deriving DecidableEq, Repr

/-- A call of `icu_send_https` or `icu_send_http`. The texts are arrays with their terminators. -/
structure TransportCall where
  useTls : Bool
  host : Bytes
  port : Int32
  head : Bytes
  body : Bytes
  bodyLength : Int32
  deriving DecidableEq, Repr

/-- Something for each string of a request. -/
structure ForStrings (α : Type) where
  host : α
  head : α
  body : α

/-- Call the transport. -/
def callTransport (transport : TransportCall → Int32) (call : TransportCall) :
    Traced TransportCall Int32 := do
  Traced.emit call
  return transport call

/-! ## The bridge that converts -/

/-- `send_request_from_java` of `android/jni_transport.c`. -/
def sendRequestFromJava (transport : TransportCall → Int32) (calls : ForStrings StringCalls)
    (request : JavaRequest) : Traced TransportCall Int32 :=
  match jstringToUtf8 calls.host request.host with
  | .error _ => pure (-1)
  | .ok host =>
      match jstringToUtf8 calls.head request.head with
      | .error _ => pure (-1)
      | .ok head =>
          match jstringToUtf8 calls.body request.body with
          | .error _ => pure (-1)
          | .ok body =>
              if request.bodyLength < 0 ∨ request.bodyLength.toInt.toNat ≠ body.length then
                pure (-1)
              else
                callTransport transport
                  { useTls := request.useTls
                    host := host.bytes
                    port := request.port
                    head := head.bytes
                    body := body.bytes
                    bodyLength := Int32.ofNat body.length }

/-! ## The bridge that asks for bytes -/

/-- An array of bytes as Java has it, with a length that is an `int`. -/
structure JavaBytes where
  bytes : Bytes
  short : bytes.length < 2 ^ 31

/-- The outcomes of the calls for one string, in their order. -/
structure CopyCalls where
  findsString : Bool
  findsGetBytes : Bool
  selectsUtf8 : Bool
  encodes : Bool
  measures : Bool
  allocates : Bool
  copies : Bool
  deriving DecidableEq, Repr

/-- A copied text: the array with its terminator, and the length that is reported. -/
structure CopiedText where
  bytes : Bytes
  length : Int32
  deriving DecidableEq, Repr

/-- `copy_java_utf8`. An empty array needs no copying. -/
def copyJavaUtf8 (getBytes : List UInt16 → JavaBytes) (calls : CopyCalls) :
    Option (List UInt16) → Option CopiedText
  | none => none
  | some units =>
      if calls.findsString = false then none
      else if calls.findsGetBytes = false then none
      else if calls.selectsUtf8 = false then none
      else if calls.encodes = false then none
      else if calls.measures = false then none
      else
        let bytes := (getBytes units).bytes
        let length := Int32.ofNat bytes.length
        if calls.allocates = false then none
        else if length ≠ 0 ∧ calls.copies = false then none
        else some ⟨bytes ++ [nul], length⟩

/-- The search of `memchr` for a NUL among the reported bytes of a text. -/
def CopiedText.holdsNul (text : CopiedText) : Bool :=
  (text.bytes.take text.length.toInt.toNat).contains nul

/-- `send` of `native/android_jni.c`. -/
def send (transport : TransportCall → Int32) (getBytes : List UInt16 → JavaBytes)
    (calls : ForStrings CopyCalls) (request : JavaRequest) : Traced TransportCall Int32 :=
  if request.bodyLength < 0 then pure 255
  else
    match copyJavaUtf8 getBytes calls.host request.host with
    | none => pure 255
    | some host =>
        match copyJavaUtf8 getBytes calls.head request.head with
        | none => pure 255
        | some head =>
            match copyJavaUtf8 getBytes calls.body request.body with
            | none => pure 255
            | some body =>
                if host.holdsNul || head.holdsNul then pure 255
                else if body.length ≠ request.bodyLength then pure 255
                else
                  callTransport transport
                    { useTls := request.useTls
                      host := host.bytes
                      port := request.port
                      head := head.bytes
                      body := body.bytes
                      bodyLength := request.bodyLength }

/-! ## What is handed over -/

/-- The UTF-8 of a string of code units. A string with an unpaired surrogate has none. -/
def Encodes (units : List UInt16) (text : Bytes) : Prop :=
  ∃ characters : List Char, units = characters.flatMap encodeChar ∧
    text = characters.flatMap String.utf8EncodeChar

/-- What a reader of C strings sees of an array is as long as the encoding of a string. -/
def SeenWhole (encoding : List UInt16 → Bytes → Prop) (value : Option (List UInt16))
    (array : Bytes) : Prop :=
  ∃ units text, value = some units ∧ encoding units text ∧ (cString array).length = text.length

/-- A call that gives the transport the whole host and the whole head, and the length of the body
that was declared and that its encoding has. -/
structure WholeCall (encoding : List UInt16 → Bytes → Prop) (request : JavaRequest)
    (call : TransportCall) : Prop where
  host : SeenWhole encoding request.host call.host
  head : SeenWhole encoding request.head call.head
  declared : call.bodyLength = request.bodyLength
  body : ∃ units text, request.body = some units ∧ encoding units text ∧
    call.bodyLength.toInt = text.length

/-- The calls for a string succeed, and it has the given UTF-8. -/
def Encoded (calls : StringCalls) (value : Option (List UInt16)) (text : Bytes) : Prop :=
  calls = ⟨true, true⟩ ∧ ∃ units, value = some units ∧ Encodes units text

/-- The requests for which the first bridge calls the transport: the strings are there and encode
texts, the calls for them succeed, and the declared length is the one of the body. -/
def Passes (calls : ForStrings StringCalls) (request : JavaRequest) : Prop :=
  ∃ host head body, Encoded calls.host request.host host ∧ Encoded calls.head request.head head ∧
    Encoded calls.body request.body body ∧ request.bodyLength.toInt = body.length

/-- No unit of a string is zero. -/
def HoldsNoNul (value : Option (List UInt16)) : Prop := ∀ units, value = some units → 0 ∉ units

/-! ## Texts -/

theorem Encodes.unique {units : List UInt16} {text other : Bytes} (first : Encodes units text)
    (second : Encodes units other) : text = other := by
  obtain ⟨characters, encoded, rfl⟩ := first
  obtain ⟨others, same, rfl⟩ := second
  rw [flatMap_encodeChar_inj (encoded.symm.trans same)]

theorem ofNat_ne_nul {value : ℕ} (positive : 0 < value) (small : value < 256) :
    nul ≠ UInt8.ofNat value := by
  intro same
  have number : nul.toNat = value := by rw [same, toNat_ofNat small]
  have zero : nul.toNat = 0 := by decide
  omega

/-- The byte zero is the code of the character zero only. -/
theorem nul_mem_utf8EncodeChar_iff {character : Char} :
    nul ∈ String.utf8EncodeChar character ↔ character.toNat = 0 := by
  have bound : character.toNat < 0x110000 := by
    have scalar : character.toNat < 0xd800 ∨
        (0xdfff < character.toNat ∧ character.toNat < 0x110000) := character.valid
    omega
  have value : character.val.toNat = character.toNat := rfl
  simp only [String.utf8EncodeChar, value]
  split
  · rw [List.mem_singleton]
    constructor
    · intro same
      by_contra positive
      exact ofNat_ne_nul (Nat.pos_of_ne_zero positive) (by omega) same
    · intro zero
      rw [zero]
      rfl
  · refine iff_of_false ?_ (by omega)
    split
    · simp only [List.mem_cons, List.not_mem_nil, or_false, not_or]
      exact ⟨ofNat_ne_nul (by omega) (by omega), ofNat_ne_nul (by omega) (by omega)⟩
    · split
      · simp only [List.mem_cons, List.not_mem_nil, or_false, not_or]
        exact ⟨ofNat_ne_nul (by omega) (by omega), ofNat_ne_nul (by omega) (by omega),
          ofNat_ne_nul (by omega) (by omega)⟩
      · simp only [List.mem_cons, List.not_mem_nil, or_false, not_or]
        exact ⟨ofNat_ne_nul (by omega) (by omega), ofNat_ne_nul (by omega) (by omega),
          ofNat_ne_nul (by omega) (by omega), ofNat_ne_nul (by omega) (by omega)⟩

/-- A text holds a NUL exactly when its string holds a zero. -/
theorem Encodes.nul_mem_iff {units : List UInt16} {text : Bytes} (encodes : Encodes units text) :
    nul ∈ text ↔ 0 ∈ units := by
  obtain ⟨characters, rfl, rfl⟩ := encodes
  rw [List.mem_flatMap, List.mem_flatMap]
  constructor
  · rintro ⟨character, member, holds⟩
    exact ⟨character, member,
      zero_mem_encodeChar_iff.mpr (nul_mem_utf8EncodeChar_iff.mp holds)⟩
  · rintro ⟨character, member, holds⟩
    exact ⟨character, member,
      nul_mem_utf8EncodeChar_iff.mpr (zero_mem_encodeChar_iff.mp holds)⟩

/-- A string is converted exactly when the calls succeed and it encodes a text, and then to that
text. -/
theorem jstringToUtf8_eq_ok_iff {calls : StringCalls} {value : Option (List UInt16)}
    {converted : Utf8Text} :
    jstringToUtf8 calls value = .ok converted ↔
      ∃ text, Encoded calls value text ∧ converted = ⟨text ++ [nul], text.length⟩ := by
  constructor
  · intro result
    cases value with
    | none => cases result
    | some units =>
        have succeed : calls = ⟨true, true⟩ := by
          obtain ⟨characters, allocates⟩ := calls
          cases characters with
          | false => cases result
          | true =>
              cases allocates with
              | false => cases result
              | true => rfl
        subst succeed
        rcases jstringToUtf8_some units with ⟨_, characters, encoded, exact⟩ | ⟨_, refused⟩
        · rw [exact] at result
          exact ⟨_, ⟨rfl, units, rfl, characters, encoded, rfl⟩, (Except.ok.inj result).symm⟩
        · rw [refused] at result
          cases result
  · rintro ⟨text, ⟨rfl, units, rfl, characters, encoded, rfl⟩, rfl⟩
    rcases jstringToUtf8_some units with ⟨_, others, same, result⟩ | ⟨unpaired, _⟩
    · rw [result, flatMap_encodeChar_inj (same.symm.trans encoded)]
    · subst encoded
      exact absurd (paired_flatMap_encodeChar characters) unpaired

/-! ## The calls of the bridges -/

theorem mem_events_callTransport {transport : TransportCall → Int32} {call made : TransportCall} :
    made ∈ (callTransport transport call).events ↔ made = call := by
  unfold callTransport
  rw [Traced.events_bind, Traced.events_emit, Traced.events_pure, List.append_nil,
    List.mem_singleton]

/-- The test of the declared length is one of numbers. -/
theorem declared_iff {declared : Int32} {length : ℕ} :
    ¬ (declared < 0 ∨ declared.toInt.toNat ≠ length) ↔ declared.toInt = length := by
  rw [Int32.lt_iff_toInt_lt]
  have zero : (0 : Int32).toInt = 0 := by decide
  rw [zero]
  omega

/-- A length that was declared is the same after the cast. -/
theorem ofNat_declared {declared : Int32} {length : ℕ} (same : declared.toInt = length) :
    Int32.ofNat length = declared := by
  have bound := declared.toInt_lt
  apply Int32.toInt_inj.mp
  rw [Int32.toInt_ofNat_of_lt (by omega), same]

/-- **What the first bridge calls the transport with.** -/
theorem mem_events_sendRequestFromJava {transport : TransportCall → Int32}
    {calls : ForStrings StringCalls} {request : JavaRequest} {call : TransportCall} :
    call ∈ (sendRequestFromJava transport calls request).events ↔
      ∃ host head body, Encoded calls.host request.host host ∧
        Encoded calls.head request.head head ∧ Encoded calls.body request.body body ∧
        request.bodyLength.toInt = body.length ∧
        call = ⟨request.useTls, host ++ [nul], request.port, head ++ [nul], body ++ [nul],
          request.bodyLength⟩ := by
  unfold sendRequestFromJava
  constructor
  · intro made
    cases hostResult : jstringToUtf8 calls.host request.host with
    | error refusal =>
        rw [hostResult] at made
        cases made
    | ok hostText =>
        cases headResult : jstringToUtf8 calls.head request.head with
        | error refusal =>
            rw [hostResult, headResult] at made
            cases made
        | ok headText =>
            cases bodyResult : jstringToUtf8 calls.body request.body with
            | error refusal =>
                rw [hostResult, headResult, bodyResult] at made
                cases made
            | ok bodyText =>
                obtain ⟨host, hostEncoded, rfl⟩ := jstringToUtf8_eq_ok_iff.mp hostResult
                obtain ⟨head, headEncoded, rfl⟩ := jstringToUtf8_eq_ok_iff.mp headResult
                obtain ⟨body, bodyEncoded, rfl⟩ := jstringToUtf8_eq_ok_iff.mp bodyResult
                rw [hostResult, headResult, bodyResult] at made
                simp only at made
                split at made
                · cases made
                · rename_i declared
                  have length := declared_iff.mp declared
                  rw [mem_events_callTransport, ofNat_declared length] at made
                  exact ⟨host, head, body, hostEncoded, headEncoded, bodyEncoded, length, made⟩
  · rintro ⟨host, head, body, hostEncoded, headEncoded, bodyEncoded, length, rfl⟩
    rw [jstringToUtf8_eq_ok_iff.mpr ⟨host, hostEncoded, rfl⟩,
      jstringToUtf8_eq_ok_iff.mpr ⟨head, headEncoded, rfl⟩,
      jstringToUtf8_eq_ok_iff.mpr ⟨body, bodyEncoded, rfl⟩]
    simp only
    rw [if_neg (declared_iff.mpr length), mem_events_callTransport, ofNat_declared length]

/-- A copied text is the bytes that Java returns for the string. -/
theorem copyJavaUtf8_eq_some {getBytes : List UInt16 → JavaBytes} {calls : CopyCalls}
    {value : Option (List UInt16)} {copied : CopiedText}
    (result : copyJavaUtf8 getBytes calls value = some copied) :
    ∃ units, value = some units ∧ copied = ⟨(getBytes units).bytes ++ [nul],
      Int32.ofNat (getBytes units).bytes.length⟩ := by
  cases value with
  | none => cases result
  | some units =>
      refine ⟨units, rfl, ?_⟩
      simp only [copyJavaUtf8, Option.ite_none_left_eq_some, Option.some.injEq] at result
      obtain ⟨-, -, -, -, -, -, -, same⟩ := result
      exact same.symm

theorem JavaBytes.toInt_length (array : JavaBytes) :
    (Int32.ofNat array.bytes.length).toInt = array.bytes.length :=
  Int32.toInt_ofNat_of_lt array.short

/-- The search goes through all the bytes and stops before the terminator. -/
theorem holdsNul_eq_false_iff {array : JavaBytes} :
    CopiedText.holdsNul ⟨array.bytes ++ [nul], Int32.ofNat array.bytes.length⟩ = false ↔
      nul ∉ array.bytes := by
  unfold CopiedText.holdsNul
  rw [array.toInt_length, Int.toNat_natCast, List.take_left, ← Bool.not_eq_true,
    List.contains_iff_mem]

/-- **What the second bridge calls the transport with.** -/
theorem eq_of_mem_events_send {transport : TransportCall → Int32}
    {getBytes : List UInt16 → JavaBytes} {calls : ForStrings CopyCalls} {request : JavaRequest}
    {call : TransportCall} (made : call ∈ (send transport getBytes calls request).events) :
    ∃ host head body, request.host = some host ∧ request.head = some head ∧
      request.body = some body ∧ nul ∉ (getBytes host).bytes ∧ nul ∉ (getBytes head).bytes ∧
      Int32.ofNat (getBytes body).bytes.length = request.bodyLength ∧
      call = ⟨request.useTls, (getBytes host).bytes ++ [nul], request.port,
        (getBytes head).bytes ++ [nul], (getBytes body).bytes ++ [nul], request.bodyLength⟩ := by
  unfold send at made
  split at made
  · cases made
  · cases hostResult : copyJavaUtf8 getBytes calls.host request.host with
    | none =>
        rw [hostResult] at made
        cases made
    | some hostText =>
        cases headResult : copyJavaUtf8 getBytes calls.head request.head with
        | none =>
            rw [hostResult, headResult] at made
            cases made
        | some headText =>
            cases bodyResult : copyJavaUtf8 getBytes calls.body request.body with
            | none =>
                rw [hostResult, headResult, bodyResult] at made
                cases made
            | some bodyText =>
                rw [hostResult, headResult, bodyResult] at made
                obtain ⟨host, hostThere, rfl⟩ := copyJavaUtf8_eq_some hostResult
                obtain ⟨head, headThere, rfl⟩ := copyJavaUtf8_eq_some headResult
                obtain ⟨body, bodyThere, rfl⟩ := copyJavaUtf8_eq_some bodyResult
                simp only at made
                split at made
                · cases made
                · rename_i free
                  rw [Bool.or_eq_true, not_or, Bool.not_eq_true, Bool.not_eq_true,
                    holdsNul_eq_false_iff, holdsNul_eq_false_iff] at free
                  split at made
                  · cases made
                  · rename_i declared
                    rw [mem_events_callTransport] at made
                    exact ⟨host, head, body, hostThere, headThere, bodyThere, free.1, free.2,
                      not_not.mp declared, made⟩

/-! ## Whole strings -/

/-- A converted string is seen whole exactly when it holds no zero. -/
theorem seenWhole_iff {calls : StringCalls} {value : Option (List UInt16)} {text : Bytes}
    (encoded : Encoded calls value text) :
    SeenWhole Encodes value (text ++ [nul]) ↔ HoldsNoNul value := by
  obtain ⟨-, units, rfl, encodes⟩ := encoded
  constructor
  · rintro ⟨same, other, there, otherEncodes, seen⟩ units' there'
    obtain rfl := Option.some.inj there
    obtain rfl := Option.some.inj there'
    obtain rfl := encodes.unique otherEncodes
    intro holds
    exact length_cString_terminated_iff.mp seen (encodes.nul_mem_iff.mpr holds)
  · intro free
    refine ⟨units, text, rfl, encodes, length_cString_terminated_iff.mpr ?_⟩
    intro holds
    exact free units rfl (encodes.nul_mem_iff.mp holds)

/-- **The first bridge** hands over whole strings exactly when it makes no call or they hold no
zero. -/
theorem sendRequestFromJava_whole_iff (transport : TransportCall → Int32)
    (calls : ForStrings StringCalls) (request : JavaRequest) :
    (∀ call ∈ (sendRequestFromJava transport calls request).events,
        WholeCall Encodes request call) ↔
      (Passes calls request → HoldsNoNul request.host ∧ HoldsNoNul request.head) := by
  constructor
  · rintro whole ⟨host, head, body, hostEncoded, headEncoded, bodyEncoded, length⟩
    have handed := whole _ (mem_events_sendRequestFromJava.mpr
      ⟨host, head, body, hostEncoded, headEncoded, bodyEncoded, length, rfl⟩)
    exact ⟨(seenWhole_iff hostEncoded).mp handed.host, (seenWhole_iff headEncoded).mp handed.head⟩
  · intro free call made
    obtain ⟨host, head, body, hostEncoded, headEncoded, bodyEncoded, length, rfl⟩ :=
      mem_events_sendRequestFromJava.mp made
    obtain ⟨hostFree, headFree⟩ :=
      free ⟨host, head, body, hostEncoded, headEncoded, bodyEncoded, length⟩
    obtain ⟨-, units, there, encodes⟩ := bodyEncoded
    exact
      { host := (seenWhole_iff hostEncoded).mpr hostFree
        head := (seenWhole_iff headEncoded).mpr headFree
        declared := rfl
        body := ⟨units, body, there, encodes, length⟩ }

/-- The encoding that `String.getBytes` gives. -/
def JavaEncoding (getBytes : List UInt16 → JavaBytes) (units : List UInt16) (text : Bytes) : Prop :=
  (getBytes units).bytes = text

/-- **The second bridge** hands over whole strings. -/
theorem send_whole (transport : TransportCall → Int32) (getBytes : List UInt16 → JavaBytes)
    (calls : ForStrings CopyCalls) (request : JavaRequest) :
    ∀ call ∈ (send transport getBytes calls request).events,
      WholeCall (JavaEncoding getBytes) request call := by
  intro call made
  obtain ⟨host, head, body, hostThere, headThere, bodyThere, hostFree, headFree, length, rfl⟩ :=
    eq_of_mem_events_send made
  exact
    { host := ⟨host, _, hostThere, rfl, length_cString_terminated_iff.mpr hostFree⟩
      head := ⟨head, _, headThere, rfl, length_cString_terminated_iff.mpr headFree⟩
      declared := rfl
      body := ⟨body, _, bodyThere, rfl, by rw [← length]; exact (getBytes body).toInt_length⟩ }

/-- **When the bridges hand over whole strings.** For every request, every outcome of the calls and
every `getBytes`, each call of the transport by either bridge gives it a host and a head that are
seen with the lengths of their encodings, and the length of the body that was declared and that its
encoding has, exactly when the request does not get through the first bridge or its host and its
head hold no U+0000. -/
theorem bridges_hand_over_iff (transport : TransportCall → Int32)
    (getBytes : List UInt16 → JavaBytes) (calls : ForStrings StringCalls)
    (copies : ForStrings CopyCalls) (request : JavaRequest) :
    ((∀ call ∈ (sendRequestFromJava transport calls request).events,
          WholeCall Encodes request call) ∧
        ∀ call ∈ (send transport getBytes copies request).events,
          WholeCall (JavaEncoding getBytes) request call) ↔
      (Passes calls request → HoldsNoNul request.host ∧ HoldsNoNul request.head) := by
  rw [← sendRequestFromJava_whole_iff transport]
  exact and_iff_left (send_whole transport getBytes copies request)

/-- The head of a request. -/
def getHead : String := "GET / HTTP/1.1\r\nHost: a\r\n\r\n"

/-- A request for the host `a`, U+0000, `b`. -/
def nulHostRequest : JavaRequest where
  useTls := true
  host := some [97, 0, 98]
  port := 443
  head := some (getHead.toList.flatMap encodeChar)
  body := some []
  bodyLength := 0

/-- All calls for the strings of a request succeed. -/
def allSucceed : ForStrings StringCalls := ⟨⟨true, true⟩, ⟨true, true⟩, ⟨true, true⟩⟩

/-- The transport is called for the host `a`, which is not the one of the request. -/
theorem nulHost_truncated :
    (sendRequestFromJava (fun _ => 0) allSucceed nulHostRequest).events =
        [⟨true, [97, 0, 98, 0], 443, ascii getHead ++ [0], [0], 0⟩] ∧
      cString [97, 0, 98, 0] = [97] ∧
      ¬ ∀ call ∈ (sendRequestFromJava (fun _ => 0) allSucceed nulHostRequest).events,
        WholeCall Encodes nulHostRequest call := by
  refine ⟨by decide +kernel, by decide, ?_⟩
  intro whole
  have passes : Passes allSucceed nulHostRequest := by
    refine ⟨[97, 0, 98], _, [], ⟨rfl, _, rfl, ['a', '\x00', 'b'], ?_, ?_⟩,
      ⟨rfl, _, rfl, getHead.toList, rfl, rfl⟩, ⟨rfl, _, rfl, [], rfl, rfl⟩, ?_⟩
    · decide
    · decide
    · decide
  have free := (sendRequestFromJava_whole_iff _ _ _).mp whole passes
  exact free.1 _ rfl (by decide)

end IcuTransport.Android
