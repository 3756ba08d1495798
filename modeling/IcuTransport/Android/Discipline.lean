import IcuTransport.Android.Exceptions
import IcuTransport.Android.Replies

/-!
# What the native methods hold

The references and blocks of a native call are balanced: a copy leaves the block of the copied text
(`keeps_copyJavaUtf8Held`), `send` frees all of them (`keeps_sendHeld`), and a capture exchanges the
global reference it replaces for the new one (`keeps_captureArguments`). Between native calls the
bridge holds the arguments that are captured, and nothing else (`keeps_session`).
-/

set_option autoImplicit false

namespace IcuTransport.Android

open Ascii Capture Tracing Custody

/-! ## What is held -/

section Holding

variable {α β : Type} {held before frame : List JniHeld}

/-- A computation that is balanced in what JNI sees. -/
def Keeps (before : List JniHeld) (computation : Traced JniEvent α) (after : α → List JniHeld) :
    Prop :=
  Balanced (fun held : JniHeld => held) before (computation.mapEvents JniEvent.action) after

theorem Keeps.pure {value : α} {after : α → List JniHeld} (same : after value = before) :
    Keeps before (Pure.pure value : Traced JniEvent α) after :=
  Balanced.pure (same ▸ List.Perm.refl _)

theorem Keeps.bind {first : Traced JniEvent α} {middle : α → List JniHeld}
    {next : α → Traced JniEvent β} {after : β → List JniHeld} (balanced : Keeps before first middle)
    (follows : Keeps (middle first.value) (next first.value) after) :
    Keeps before (first >>= next) after := by
  rw [Keeps, Traced.mapEvents_bind]
  exact Balanced.bind balanced follows

theorem Keeps.emit_bind {event : JniEvent} {next : Unit → Traced JniEvent β}
    {after : β → List JniHeld}
    (allowed : Allowed (fun held : JniHeld => held) before event.action)
    (follows : Keeps (moved before event.action) (next ()) after) :
    Keeps before (Traced.emit event >>= next) after := by
  rw [Keeps, Traced.mapEvents_bind]
  exact Balanced.emit_bind allowed follows

theorem Keeps.emit {event : JniEvent}
    (allowed : Allowed (fun held : JniHeld => held) before event.action) :
    Keeps before (Traced.emit event) fun _ => moved before event.action :=
  Keeps.emit_bind allowed (Keeps.pure rfl)

theorem Keeps.permute {computation : Traced JniEvent α} {other : List JniHeld}
    {after : α → List JniHeld} (same : before.Perm other) (keeps : Keeps other computation after) :
    Keeps before computation after :=
  Balanced.permute same keeps

theorem keeps_callJni {uses : List JniHeld} (within : uses ⊆ held) (throws : Bool) :
    Keeps held (callJni uses throws) fun _ => held := by
  refine Keeps.emit_bind (fun _ member => within member) ?_
  cases throws with
  | false => exact Keeps.pure rfl
  | true => exact Keeps.emit trivial

theorem keeps_clearException (pending : Bool) :
    Keeps held (clearException pending) fun _ => held := by
  refine Keeps.emit_bind trivial ?_
  cases pending with
  | false => exact Keeps.pure rfl
  | true => exact Keeps.emit_bind trivial (Keeps.pure rfl)

theorem keeps_callCleared {uses : List JniHeld} (within : uses ⊆ held) (throws : Bool) :
    Keeps held (callCleared uses throws) fun _ => held :=
  (keeps_callJni within throws).bind (keeps_clearException throws)

theorem keeps_askFor {uses : List JniHeld} (within : uses ⊆ held) (answer : Given) :
    Keeps held (askFor uses answer) fun _ => held := by
  cases answer with
  | reference => exact keeps_callCleared within false
  | nothing throws => exact (keeps_callJni within throws).bind (Keeps.pure rfl)

/-- A reference that is given is held. -/
theorem keeps_askForReference {uses : List JniHeld} {reference : JniHeld}
    (within : uses ⊆ held ++ frame) (fresh : reference ∉ held ++ frame) (answer : Given) :
    Keeps (held ++ frame) (askForReference uses reference answer) fun given =>
      (if given then reference :: held else held) ++ frame := by
  cases answer with
  | reference =>
      refine (keeps_callJni within false).bind (Keeps.emit_bind ?_ ?_)
      · simpa [JniEvent.action, Allowed] using fresh
      · exact Keeps.emit_bind trivial (Keeps.pure rfl)
  | nothing throws => exact (keeps_callJni within throws).bind (Keeps.pure rfl)

theorem keeps_giveBack {gone : List JniHeld} (holds : before.Perm (gone ++ held)) :
    Keeps before (giveBack gone) fun _ => held := by
  induction gone generalizing before with
  | nil => exact Keeps.permute holds (Keeps.pure rfl)
  | cons first rest ih =>
      refine Keeps.permute holds (Keeps.emit_bind List.mem_cons_self (ih ?_))
      simp [JniEvent.action, moved]

theorem keeps_givingBack (gone : List JniHeld) (value : α) :
    Keeps (gone ++ frame) (giveBack gone >>= fun _ => Pure.pure value) fun _ => frame :=
  (keeps_giveBack (List.Perm.refl _)).bind (Keeps.pure rfl)

/-- The copy of a string, if there is one. -/
def copyOf (string : CopiedString) (copied : Option CopiedText) : List JniHeld :=
  if copied.isSome then [.copy string] else []

/-- A part that may give nothing, and then gives back what is held for a copy. -/
theorem keeps_unlessCopied {first : Traced JniEvent Bool}
    {next : Traced JniEvent (Option CopiedText)}
    {string : CopiedString} (gone more : List JniHeld)
    (early : Keeps (gone ++ frame) first fun given => (if given then more else gone) ++ frame)
    (good : Keeps (more ++ frame) next fun copied => copyOf string copied ++ frame) :
    Keeps (gone ++ frame) (first >>= fun given => if given = false then noCopy gone else next)
      fun copied => copyOf string copied ++ frame := by
  refine early.bind ?_
  cases first.value with
  | false => exact (keeps_giveBack (List.Perm.refl _)).bind (Keeps.pure rfl)
  | true => exact good

/-- Nothing here belongs to the copy of a string. -/
structure WithoutCopy (string : CopiedString) (frame : List JniHeld) : Prop where
  noClass : .stringClass ∉ frame
  noUtf8 : .utf8 ∉ frame
  noBytes : .bytes ∉ frame
  noCopy : .copy string ∉ frame

/-- **A copy leaves the block of the copied text**, and nothing when it fails. -/
theorem keeps_copyJavaUtf8Held {string : CopiedString} (without : WithoutCopy string frame)
    (getBytes : List UInt16 → JavaBytes) (answers : CopyAnswers) (value : Option (List UInt16)) :
    Keeps frame (copyJavaUtf8Held getBytes answers string value) fun copied =>
      copyOf string copied ++ frame := by
  obtain ⟨noClass, noUtf8, noBytes, noCopy⟩ := without
  cases value with
  | none => exact Keeps.pure rfl
  | some units =>
      unfold copyJavaUtf8Held
      refine keeps_unlessCopied [] [.stringClass] (keeps_askForReference (by simp) noClass _) ?_
      refine keeps_unlessCopied [.stringClass] [.stringClass] ?_ ?_
      · simp only [ite_self]
        exact keeps_askFor (by simp) _
      refine keeps_unlessCopied [.stringClass] [.utf8, .stringClass]
        (keeps_askForReference (by simp) (by simp [noUtf8]) _) ?_
      refine keeps_unlessCopied [.utf8, .stringClass] [.bytes, .utf8, .stringClass]
        (keeps_askForReference (by simp) (by simp [noBytes]) _) ?_
      refine keeps_unlessCopied [.bytes, .utf8, .stringClass] [.bytes, .utf8, .stringClass] ?_ ?_
      · simp only [ite_self]
        exact keeps_callCleared (by simp) _
      dsimp only
      split
      · exact (keeps_giveBack (List.Perm.refl _)).bind (Keeps.pure rfl)
      · refine Keeps.emit_bind (by simp [JniEvent.action, Allowed, noCopy]) ?_
        have ends : ∀ copied : CopiedText,
            Keeps ([.copy string, .bytes, .utf8, .stringClass] ++ frame) (do
              Traced.emit (.used [.copy string])
              giveBack [.bytes, .utf8, .stringClass]
              pure (some copied)) fun copied => copyOf string copied ++ frame := by
          intro copied
          refine Keeps.emit_bind (by simp [JniEvent.action, Allowed]) ?_
          exact (keeps_giveBack List.perm_middle.symm).bind (Keeps.pure rfl)
        split
        · exact ends _
        · refine keeps_unlessCopied [.copy string, .bytes, .utf8, .stringClass]
            [.copy string, .bytes, .utf8, .stringClass] ?_ (ends _)
          simp only [ite_self]
          exact keeps_callCleared (by simp) _

/-! ### The native methods -/

/-- What the transport is called with is held. -/
theorem keeps_sendCopied (within : [.copy .host, .copy .head, .copy .body] ⊆ held)
    (transport : TransportCall → Int32) (request : JavaRequest) (host head body : CopiedText) :
    Keeps held (sendCopied transport request host head body) fun _ => held := by
  unfold sendCopied
  refine Keeps.emit_bind (fun copy member => within ?_) ?_
  · simp only [List.mem_cons, List.not_mem_nil, or_false] at member ⊢
    tauto
  cases transportCallOf request host head body with
  | none => exact Keeps.pure rfl
  | some call => exact Keeps.emit_bind (fun _ member => within member) (Keeps.pure rfl)

/-- **`send` frees every text that it copied**, wherever it ends. -/
theorem keeps_sendHeld (without : ∀ string, WithoutCopy string frame)
    (transport : TransportCall → Int32) (getBytes : List UInt16 → JavaBytes)
    (answers : ForStrings CopyAnswers) (request : JavaRequest) :
    Keeps frame (sendHeld transport getBytes answers request) fun _ => frame := by
  have more : ∀ {string other : CopiedString} {frame : List JniHeld}, string ≠ other →
      WithoutCopy string frame → WithoutCopy string (.copy other :: frame) := by
    intro string other frame different without
    obtain ⟨noClass, noUtf8, noBytes, noCopy⟩ := without
    constructor
    all_goals simp [noClass, noUtf8, noBytes, noCopy, different]
  unfold sendHeld
  split
  · exact Keeps.pure rfl
  · refine (keeps_copyJavaUtf8Held (without .host) _ _ _).bind ?_
    cases (copyJavaUtf8Held getBytes answers.host .host request.host).value with
    | none => exact Keeps.pure rfl
    | some host =>
        refine (keeps_copyJavaUtf8Held (more (by decide) (without .head)) _ _ _).bind ?_
        cases (copyJavaUtf8Held getBytes answers.head .head request.head).value with
        | none => exact keeps_givingBack [.copy .host] 255
        | some head =>
            refine (keeps_copyJavaUtf8Held
              (more (by decide) (more (by decide) (without .body))) _ _ _).bind ?_
            cases (copyJavaUtf8Held getBytes answers.body .body request.body).value with
            | none => exact keeps_givingBack [.copy .head, .copy .host] 255
            | some body =>
                refine (keeps_sendCopied ?_ transport request host head body).bind ?_
                · simp [copyOf]
                · exact keeps_givingBack [.copy .body, .copy .head, .copy .host] _

end Holding

/-! ## Native calls -/

section NativeCalls

/-- The state after a native call, or at the exit. -/
def Ended.state (before : Session) : Ended → Session
  | .returned later _ => later
  | .exited _ => before

theorem withoutCopy_held (state : Session) (string : CopiedString) :
    WithoutCopy string state.held := by
  constructor
  all_goals simp [Session.held]

theorem Session.captured_subset {state : Session} {capture : ℕ} {array : JavaArguments}
    (captured : state.captured = some (capture, array)) : [.arguments capture] ⊆ state.held := by
  simp [Session.held, captured]

theorem keeps_bridgeAbort (state : Session) :
    Keeps state.held bridgeAbort fun ended => (ended.state state).held := Keeps.pure rfl

/-- **A capture gives back the arguments before it.** -/
theorem keeps_captureArguments {state : Session} (numbered : state.Numbered)
    (arguments : Option JavaArguments) (newGlobalRef : Given) :
    Keeps state.held (captureArguments state arguments newGlobalRef) fun ended =>
      (ended.state state).held := by
  cases arguments with
  | none => exact keeps_bridgeAbort state
  | some array =>
      have fresh : .arguments state.captures ∉ state.held ++ [] := by
        intro member
        rw [List.append_nil, Session.held, List.mem_map] at member
        obtain ⟨captured, there, same⟩ := member
        have earlier := numbered captured (Option.mem_toList.mp there)
        rw [JniHeld.arguments.inj same] at earlier
        exact lt_irrefl _ earlier
      have asked := keeps_askForReference (List.nil_subset _) fresh newGlobalRef
      simp only [List.append_nil] at asked
      refine Keeps.bind asked ?_
      cases (askForReference [] (.arguments state.captures) newGlobalRef).value with
      | false => exact keeps_bridgeAbort state
      | true =>
          refine Keeps.bind (keeps_giveBack ?_) (Keeps.pure rfl)
          exact (List.perm_append_singleton _ _).symm

theorem keeps_idricArgumentCount (state : Session) (throws : Bool) :
    Keeps state.held (idricArgumentCount state throws) fun ended =>
      (ended.state state).held := by
  unfold idricArgumentCount
  cases captured : state.captured with
  | none => exact keeps_bridgeAbort state
  | some found =>
      obtain ⟨capture, array⟩ := found
      have within := Session.captured_subset captured
      refine (keeps_callCleared within throws).bind ?_
      dsimp only
      split
      · exact keeps_bridgeAbort state
      · exact Keeps.pure rfl

theorem keeps_idricArgument (state : Session) (index : Int32) (newString : Given)
    (measureThrows : Bool) (element : Given) :
    Keeps state.held (idricArgument state index newString measureThrows element) fun ended =>
      (ended.state state).held := by
  unfold idricArgument
  cases captured : state.captured with
  | none => exact keeps_bridgeAbort state
  | some found =>
      obtain ⟨capture, array⟩ := found
      have within := Session.captured_subset captured
      dsimp only
      split
      · refine (keeps_askFor (List.nil_subset _) newString).bind ?_
        split
        · exact keeps_bridgeAbort state
        · exact Keeps.pure rfl
      · refine (keeps_callCleared within measureThrows).bind ?_
        split
        · exact keeps_bridgeAbort state
        · cases array.elements[(index - 1).toInt.toNat]?.join with
          | none => exact (keeps_askFor within _).bind (keeps_bridgeAbort state)
          | some text =>
              refine (keeps_askFor within element).bind ?_
              split
              · exact keeps_bridgeAbort state
              · exact Keeps.pure rfl

variable (transport : TransportCall → Int32) (getBytes : List UInt16 → JavaBytes)

theorem keeps_idricPutString (state : Session) (text : Option (List UInt16))
    (answers : CopyAnswers) (write : Wire.WriteOutcome) :
    Keeps state.held (idricPutString getBytes state text answers write) fun ended =>
      (ended.state state).held := by
  unfold idricPutString
  refine (keeps_copyJavaUtf8Held (withoutCopy_held state .stdout) _ _ _).bind ?_
  cases (copyJavaUtf8Held getBytes answers .stdout text).value with
  | none => exact keeps_bridgeAbort state
  | some copied =>
      refine Keeps.emit_bind (by simp [JniEvent.action, Allowed, copyOf]) ?_
      refine (keeps_giveBack (List.Perm.refl _)).bind ?_
      split
      · exact keeps_bridgeAbort state
      · exact Keeps.pure rfl

/-- **A native call gives back what it acquires**, except the arguments that it captures. -/
theorem keeps_perform {state : Session} (numbered : state.Numbered) (call : NativeCall) :
    Keeps state.held (perform transport getBytes state call) fun ended =>
      (ended.state state).held := by
  cases call with
  | captureArguments arguments newGlobalRef => exact keeps_captureArguments numbered _ _
  | idricArgumentCount throws => exact keeps_idricArgumentCount state throws
  | idricArgument index newString measureThrows element => exact keeps_idricArgument state _ _ _ _
  | idricPutString text answers write => exact keeps_idricPutString getBytes state _ _ _
  | idricExit status => exact Keeps.pure rfl
  | icuSend request answers =>
      exact (keeps_sendHeld (withoutCopy_held state) _ _ _ _).bind (Keeps.pure rfl)

end NativeCalls

/-! ## Sessions -/

section Sessions

variable (transport : TransportCall → Int32) (getBytes : List UInt16 → JavaBytes)

/-- **A session gives back what its calls acquire**, except the arguments that are still
captured. -/
theorem keeps_session {state : Session} (numbered : state.Numbered) (calls : List NativeCall) :
    Keeps state.held (session transport getBytes state calls) fun outcome =>
      outcome.final.held := by
  induction calls generalizing state with
  | nil => exact Keeps.pure rfl
  | cons call rest ih =>
      unfold session
      refine (keeps_perform transport getBytes numbered call).bind ?_
      cases ended : (perform transport getBytes state call).value with
      | exited status => exact Keeps.pure rfl
      | returned later reply =>
          have left := leaves_perform transport getBytes ended
          refine Keeps.emit_bind trivial ?_
          exact (ih (left.numbered numbered)).bind (Keeps.pure rfl)

end Sessions

/-- **Native calls keep the rules of JNI.** Whatever Java calls, in whatever order, and whatever JNI
answers: while an exception is pending no function of JNI is called but `ExceptionCheck`,
`ExceptionClear` and those that delete a reference, which JNI allows then; every reference and every
block is used only while it is held and given back once (the arguments still captured are given back
when the session ends), and the transport is called as the calls that returned call it on their
own. -/
theorem native_calls_disciplined (transport : TransportCall → Int32)
    (getBytes : List UInt16 → JavaBytes) (calls : List NativeCall) :
    let ran := session transport getBytes .fresh calls
    (∃ pending, watch jniStep ⟨false, []⟩ ran.events =
      some ⟨pending, (calls.take ran.value.replies.length).flatMap
        (handedBy transport getBytes)⟩) ∧
      Orderly (fun held : JniHeld => held)
        (ran.events.map JniEvent.action ++ ran.value.final.held.map .release) := by
  have numbered : Session.fresh.Numbered := fun captured there => by cases there
  have keeps : Keeps Session.fresh.held (session transport getBytes .fresh calls) fun outcome =>
    outcome.final.held := keeps_session transport getBytes numbered calls
  obtain ⟨pending, watched, _⟩ := polite_session transport getBytes .fresh calls []
  exact ⟨⟨pending, watched⟩, Balanced.orderly_released keeps⟩

end IcuTransport.Android
