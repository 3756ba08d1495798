import IcuTransport.Android.Bridges
import IcuTransport.Library.Custody
import IcuTransport.Wire.Reading

/-!
# The native methods of the second bridge

Java calls the native methods of `native/android_jni.c` in any order. They share one global
reference, to the arguments that were captured last, and each of them makes calls of JNI that may
leave an exception pending. `session` embeds a sequence of native calls until one of them ends the
process. Its trace is what JNI sees: its functions with the references they are given, exceptions,
references and blocks that are acquired and given back, and the calls of the transport.

A JNI function that leaves an exception pending gives no reference. Without the trace the copies and
the calls of the transport are those of `Android.Bridges` (`value_copyJavaUtf8Held`,
`value_sendHeld`).
-/

set_option autoImplicit false

namespace IcuTransport.Android

open Ascii Capture Utf16 Tracing Custody

/-! ## What JNI sees -/

/-- The strings that are copied, each to a block of its own. -/
inductive CopiedString where
  | host
  | head
  | body
  | stdout
  deriving DecidableEq, Repr

/-- What is given back: the local references of a copy, the blocks with copied texts, and the global
references to arguments, by the captures before them. -/
inductive JniHeld where
  | stringClass
  | utf8
  | bytes
  | copy (string : CopiedString)
  | arguments (captures : ℕ)
  deriving DecidableEq, Repr

/-- What a native method does. -/
inductive JniEvent where
  /-- A JNI function that must not be called while an exception is pending. -/
  | called (uses : List JniHeld)
  | raised
  | checked
  | cleared
  | acquired (held : JniHeld)
  | released (held : JniHeld)
  | used (uses : List JniHeld)
  | transport (call : TransportCall) (uses : List JniHeld)
  /-- The method returns, and Java throws a pending exception. -/
  | returned

/-- What an event means for what is held. -/
def JniEvent.action : JniEvent → Action JniHeld
  | .called uses => .touch uses
  | .acquired held => .acquire held
  | .released held => .release held
  | .used uses => .touch uses
  | .transport _ uses => .touch uses
  | _ => .idle

/-- Whether an exception is pending, and the calls of the transport so far. -/
structure JniState where
  pending : Bool
  handed : List TransportCall
  deriving DecidableEq, Repr

/-- The monitor of the exceptions: it refuses a JNI function that is called while one is pending.
The functions that look at an exception, clear it or delete a reference have events of their own and
may be called then. -/
def jniStep (state : JniState) : JniEvent → Option JniState
  | .called _ => if state.pending then none else some state
  | .raised => some { state with pending := true }
  | .cleared => some { state with pending := false }
  | .returned => some { state with pending := false }
  | .transport call _ => some { state with handed := state.handed ++ [call] }
  | _ => some state

/-! ## Functions of JNI -/

/-- What a JNI function gives: a reference, or nothing, and then an exception may be pending. -/
inductive Given where
  | reference
  | nothing (throws : Bool)
  deriving DecidableEq, Repr

/-- Something was given. -/
def Given.succeeds : Given → Bool
  | .reference => true
  | .nothing _ => false

/-- `clear_exception`. -/
def clearException (pending : Bool) : Traced JniEvent Bool := do
  Traced.emit .checked
  if pending then do
    Traced.emit .cleared
    pure false
  else pure true

/-- Call a JNI function with references. -/
def callJni (uses : List JniHeld) (throws : Bool) : Traced JniEvent Unit := do
  Traced.emit (.called uses)
  if throws then Traced.emit .raised else pure ()

/-- Call a JNI function, and clear the exception it may leave. -/
def callCleared (uses : List JniHeld) (throws : Bool) : Traced JniEvent Bool := do
  callJni uses throws
  clearException throws

/-- Ask for something that need not be given back. Where nothing is given the exception is not
looked at. -/
def askFor (uses : List JniHeld) : Given → Traced JniEvent Bool
  | .nothing throws => do
      callJni uses throws
      pure false
  | .reference => callCleared uses false

/-- Ask for a reference. -/
def askForReference (uses : List JniHeld) (held : JniHeld) : Given → Traced JniEvent Bool
  | .nothing throws => do
      callJni uses throws
      pure false
  | .reference => do
      callJni uses false
      Traced.emit (.acquired held)
      clearException false

/-- Give back, in this order. -/
def giveBack : List JniHeld → Traced JniEvent Unit
  | [] => pure ()
  | held :: rest => do
      Traced.emit (.released held)
      giveBack rest

/-! ## Copying a string -/

/-- What the calls for one string give, in their order. -/
structure CopyAnswers where
  findClass : Given
  getMethodId : Given
  newStringUtf : Given
  callObjectMethod : Given
  getArrayLengthThrows : Bool
  allocates : Bool
  getByteArrayRegionThrows : Bool
  deriving DecidableEq, Repr

/-- The outcomes of the calls. -/
def CopyAnswers.calls (answers : CopyAnswers) : CopyCalls where
  findsString := answers.findClass.succeeds
  findsGetBytes := answers.getMethodId.succeeds
  selectsUtf8 := answers.newStringUtf.succeeds
  encodes := answers.callObjectMethod.succeeds
  measures := !answers.getArrayLengthThrows
  allocates := answers.allocates
  copies := !answers.getByteArrayRegionThrows

/-- Give back, and have no copy. -/
def noCopy (held : List JniHeld) : Traced JniEvent (Option CopiedText) := do
  giveBack held
  pure none

/-- `copy_java_utf8`, to a block for the string. -/
def copyJavaUtf8Held (getBytes : List UInt16 → JavaBytes) (answers : CopyAnswers)
    (string : CopiedString) : Option (List UInt16) → Traced JniEvent (Option CopiedText)
  | none => pure none
  | some units => do
      let findsString ← askForReference [] .stringClass answers.findClass
      if findsString = false then noCopy []
      else do
        let findsGetBytes ← askFor [.stringClass] answers.getMethodId
        if findsGetBytes = false then noCopy [.stringClass]
        else do
          let selectsUtf8 ← askForReference [] .utf8 answers.newStringUtf
          if selectsUtf8 = false then noCopy [.stringClass]
          else do
            let encodes ← askForReference [.utf8] .bytes answers.callObjectMethod
            if encodes = false then noCopy [.utf8, .stringClass]
            else do
              let measures ← callCleared [.bytes] answers.getArrayLengthThrows
              if measures = false then noCopy [.bytes, .utf8, .stringClass]
              else do
                let bytes := (getBytes units).bytes
                let length := Int32.ofNat bytes.length
                if answers.allocates = false then noCopy [.bytes, .utf8, .stringClass]
                else do
                  Traced.emit (.acquired (.copy string))
                  let copies ←
                    if length = 0 then pure true
                    else callCleared [.bytes, .copy string] answers.getByteArrayRegionThrows
                  if copies = false then noCopy [.copy string, .bytes, .utf8, .stringClass]
                  else do
                    Traced.emit (.used [.copy string])
                    giveBack [.bytes, .utf8, .stringClass]
                    pure (some ⟨bytes ++ [nul], length⟩)

/-! ## Calling the transport -/

/-- What `send` hands over of the copied texts, if it does. -/
def transportCallOf (request : JavaRequest) (host head body : CopiedText) : Option TransportCall :=
  if host.holdsNul || head.holdsNul then none
  else if body.length ≠ request.bodyLength then none
  else
    some
      { useTls := request.useTls
        host := host.bytes
        port := request.port
        head := head.bytes
        body := body.bytes
        bodyLength := request.bodyLength }

/-- The part of `send` between the copies and `done`. -/
def sendCopied (transport : TransportCall → Int32) (request : JavaRequest)
    (host head body : CopiedText) : Traced JniEvent Int32 := do
  Traced.emit (.used [.copy .host, .copy .head])
  match transportCallOf request host head body with
  | none => pure 255
  | some call => do
      Traced.emit (.transport call [.copy .host, .copy .head, .copy .body])
      pure (transport call)

/-- `send`. The texts that were copied are freed wherever it ends. -/
def sendHeld (transport : TransportCall → Int32) (getBytes : List UInt16 → JavaBytes)
    (answers : ForStrings CopyAnswers) (request : JavaRequest) : Traced JniEvent Int32 :=
  if request.bodyLength < 0 then pure 255
  else do
    match ← copyJavaUtf8Held getBytes answers.host .host request.host with
    | none => pure 255
    | some host => do
        match ← copyJavaUtf8Held getBytes answers.head .head request.head with
        | none => do
            giveBack [.copy .host]
            pure 255
        | some head => do
            match ← copyJavaUtf8Held getBytes answers.body .body request.body with
            | none => do
                giveBack [.copy .head, .copy .host]
                pure 255
            | some body => do
                let result ← sendCopied transport request host head body
                giveBack [.copy .body, .copy .head, .copy .host]
                pure result

/-! ## The native methods -/

/-- An array of strings as Java has it, with a length that is an `int`. An element may be null. -/
structure JavaArguments where
  elements : List (Option (List UInt16))
  short : elements.length < 2 ^ 31

/-- What the bridge keeps between native calls: the arguments that were captured last, with the
number of captures before, and the captures so far. -/
structure Session where
  captured : Option (ℕ × JavaArguments)
  captures : ℕ

/-- What the bridge holds between native calls. -/
def Session.held (state : Session) : List JniHeld :=
  state.captured.toList.map fun captured => .arguments captured.1

/-- A call of a native method, with what the calls it makes give. -/
inductive NativeCall where
  | captureArguments (arguments : Option JavaArguments) (newGlobalRef : Given)
  | idricArgumentCount (throws : Bool)
  | idricArgument (index : Int32) (newString : Given) (measureThrows : Bool) (element : Given)
  | idricPutString (text : Option (List UInt16)) (answers : CopyAnswers) (write : Wire.WriteOutcome)
  | idricExit (status : Int32)
  | icuSend (request : JavaRequest) (answers : ForStrings CopyAnswers)

/-- What a native method returns to Java. -/
inductive Reply where
  | nothing
  | count (number : Int32)
  | argument (text : List UInt16)
  | result (code : Int32)
  deriving DecidableEq, Repr

/-- How a native call ends: it returns, or the process exits. -/
inductive Ended where
  | returned (session : Session) (reply : Reply)
  | exited (status : Int32)

/-- `bridge_abort`. -/
def bridgeAbort : Traced JniEvent Ended := pure (.exited 1)

/-- `captureArguments`. -/
def captureArguments (state : Session) (arguments : Option JavaArguments) (newGlobalRef : Given) :
    Traced JniEvent Ended :=
  match arguments with
  | none => bridgeAbort
  | some array => do
      let saved ← askForReference [] (.arguments state.captures) newGlobalRef
      if saved = false then bridgeAbort
      else do
        giveBack state.held
        pure (.returned ⟨some (state.captures, array), state.captures + 1⟩ .nothing)

/-- `idricArgumentCount`. -/
def idricArgumentCount (state : Session) (throws : Bool) : Traced JniEvent Ended :=
  match state.captured with
  | none => bridgeAbort
  | some (capture, array) => do
      let counted ← callCleared [.arguments capture] throws
      let count := Int32.ofNat array.elements.length
      if counted = false ∨ count = Int32.maxValue then bridgeAbort
      else pure (.returned state (.count (count + 1)))

/-- The synthetic `argv[0]`. -/
def executableName : List UInt16 := "icu".toList.flatMap encodeChar

/-- `idricArgument`. -/
def idricArgument (state : Session) (index : Int32) (newString : Given) (measureThrows : Bool)
    (element : Given) : Traced JniEvent Ended :=
  match state.captured with
  | none => bridgeAbort
  | some (capture, array) =>
      if index = 0 then do
        let created ← askFor [] newString
        if created = false then bridgeAbort
        else pure (.returned state (.argument executableName))
      else do
        let measured ← callCleared [.arguments capture] measureThrows
        let count := Int32.ofNat array.elements.length
        if measured = false ∨ index < 1 ∨ index > count then bridgeAbort
        else do
          match array.elements[(index - 1).toInt.toNat]?.join with
          | none => do
              let _ ← askFor [.arguments capture] (.nothing false)
              bridgeAbort
          | some text => do
              let read ← askFor [.arguments capture] element
              if read = false then bridgeAbort else pure (.returned state (.argument text))

/-- `idricPutString`. -/
def idricPutString (getBytes : List UInt16 → JavaBytes) (state : Session)
    (text : Option (List UInt16)) (answers : CopyAnswers) (write : Wire.WriteOutcome) :
    Traced JniEvent Ended := do
  match ← copyJavaUtf8Held getBytes answers .stdout text with
  | none => bridgeAbort
  | some copied => do
      Traced.emit (.used [.copy .stdout])
      let written := Wire.writeOutput write (copied.bytes.take copied.length.toInt.toNat)
      giveBack [.copy .stdout]
      if copied.length ≠ 0 ∧ written.2 = false then bridgeAbort
      else pure (.returned state .nothing)

/-- A call of a native method. -/
def perform (transport : TransportCall → Int32) (getBytes : List UInt16 → JavaBytes)
    (state : Session) : NativeCall → Traced JniEvent Ended
  | .captureArguments arguments newGlobalRef => captureArguments state arguments newGlobalRef
  | .idricArgumentCount throws => idricArgumentCount state throws
  | .idricArgument index newString measureThrows element =>
      idricArgument state index newString measureThrows element
  | .idricPutString text answers write => idricPutString getBytes state text answers write
  | .idricExit status => pure (.exited status)
  | .icuSend request answers => do
      let result ← sendHeld transport getBytes answers request
      pure (.returned state (.result result))

/-- What a sequence of native calls leads to: the replies to those that returned, what the bridge
keeps, and the status when the process exits. -/
structure SessionOutcome where
  replies : List Reply
  final : Session
  exit : Option Int32

/-- Call native methods one after another, until one of them ends the process. -/
def session (transport : TransportCall → Int32) (getBytes : List UInt16 → JavaBytes) :
    Session → List NativeCall → Traced JniEvent SessionOutcome
  | state, [] => pure ⟨[], state, none⟩
  | state, call :: rest => do
      match ← perform transport getBytes state call with
      | .exited status => pure ⟨[], state, some status⟩
      | .returned later reply => do
          Traced.emit .returned
          let others ← session transport getBytes later rest
          pure ⟨reply :: others.replies, others.final, others.exit⟩

/-- Nothing is captured yet. -/
def Session.fresh : Session := ⟨none, 0⟩

/-! ## Without what is held -/

@[simp] theorem value_callCleared (uses : List JniHeld) (throws : Bool) :
    (callCleared uses throws).value = !throws := by
  cases throws with
  | false => rfl
  | true => rfl

@[simp] theorem value_askFor (uses : List JniHeld) (answer : Given) :
    (askFor uses answer).value = answer.succeeds := by
  cases answer with
  | reference => rfl
  | nothing throws => rfl

@[simp] theorem value_askForReference (uses : List JniHeld) (held : JniHeld) (answer : Given) :
    (askForReference uses held answer).value = answer.succeeds := by
  cases answer with
  | reference => rfl
  | nothing throws => rfl

@[simp] theorem value_noCopy (held : List JniHeld) : (noCopy held).value = none := rfl

/-- **A copy is the copy of `Android.Bridges`.** -/
theorem value_copyJavaUtf8Held (getBytes : List UInt16 → JavaBytes) (answers : CopyAnswers)
    (string : CopiedString) (value : Option (List UInt16)) :
    (copyJavaUtf8Held getBytes answers string value).value =
      copyJavaUtf8 getBytes answers.calls value := by
  cases value with
  | none => rfl
  | some units =>
      simp only [copyJavaUtf8Held, copyJavaUtf8, CopyAnswers.calls, Traced.value_bind,
        apply_ite Traced.value, value_askForReference, value_askFor, value_callCleared,
        value_noCopy, Traced.value_pure]
      by_cases empty : Int32.ofNat (getBytes units).bytes.length = 0
      · simp only [empty, if_true, ne_eq, not_true, false_and, if_false, Bool.true_eq_false]
      · simp only [empty, if_false, ne_eq, not_false_eq_true, true_and]

/-- The outcomes of the calls for the strings of a request. -/
def callsOf (answers : ForStrings CopyAnswers) : ForStrings CopyCalls :=
  ⟨answers.host.calls, answers.head.calls, answers.body.calls⟩

/-- What `send` does with the copied texts. -/
theorem send_eq (transport : TransportCall → Int32) (getBytes : List UInt16 → JavaBytes)
    (calls : ForStrings CopyCalls) (request : JavaRequest) :
    send transport getBytes calls request =
      if request.bodyLength < 0 then pure 255
      else
        ((copyJavaUtf8 getBytes calls.host request.host).bind fun host =>
          (copyJavaUtf8 getBytes calls.head request.head).bind fun head =>
            (copyJavaUtf8 getBytes calls.body request.body).bind fun body =>
              transportCallOf request host head body).elim (pure 255)
                (callTransport transport) := by
  unfold send
  split
  · rfl
  · cases copyJavaUtf8 getBytes calls.host request.host with
    | none => rfl
    | some host =>
        cases copyJavaUtf8 getBytes calls.head request.head with
        | none => rfl
        | some head =>
            cases copyJavaUtf8 getBytes calls.body request.body with
            | none => rfl
            | some body =>
                simp only [Option.bind_some, transportCallOf]
                split
                · rfl
                · split
                  · rfl
                  · rfl

theorem value_sendCopied (transport : TransportCall → Int32) (request : JavaRequest)
    (host head body : CopiedText) :
    (sendCopied transport request host head body).value =
      ((transportCallOf request host head body).elim (pure 255)
        (callTransport transport)).value := by
  unfold sendCopied
  rw [Traced.value_bind]
  cases transportCallOf request host head body with
  | none => rfl
  | some call => rfl

/-- **The result is the one of `send`.** -/
theorem value_sendHeld (transport : TransportCall → Int32) (getBytes : List UInt16 → JavaBytes)
    (answers : ForStrings CopyAnswers) (request : JavaRequest) :
    (sendHeld transport getBytes answers request).value =
      (send transport getBytes (callsOf answers) request).value := by
  rw [send_eq]
  unfold sendHeld
  dsimp only [callsOf]
  split
  · rfl
  · rw [Traced.value_bind, value_copyJavaUtf8Held]
    cases copyJavaUtf8 getBytes answers.host.calls request.host with
    | none => rfl
    | some host =>
        dsimp only
        rw [Traced.value_bind, value_copyJavaUtf8Held]
        cases copyJavaUtf8 getBytes answers.head.calls request.head with
        | none => rfl
        | some head =>
            dsimp only
            rw [Traced.value_bind, value_copyJavaUtf8Held]
            cases copyJavaUtf8 getBytes answers.body.calls request.body with
            | none => rfl
            | some body =>
                simp only [Option.bind_some, Traced.value_bind, Traced.value_pure]
                exact value_sendCopied transport request host head body

end IcuTransport.Android
