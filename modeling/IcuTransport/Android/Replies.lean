import IcuTransport.Android.Session

/-!
# What the native methods reply

A native call sees nothing of the calls before it but the arguments that were captured last. What it
may reply is therefore said by its own arguments and by these (`Replies`): `idricArgumentCount`
counts them and the synthetic one, and `idricArgument` reads one of them. Every reply of a session
is such a reply (`arguments_answered`).
-/

set_option autoImplicit false

namespace IcuTransport.Android

open Ascii Capture Tracing

/-! ## Replies -/

/-- The captures are numbered in order. -/
def Session.Numbered (state : Session) : Prop :=
  ∀ captured ∈ state.captured, captured.1 < state.captures

section Replies

variable (transport : TransportCall → Int32) (getBytes : List UInt16 → JavaBytes)

/-- The arguments that a native call captures. -/
def captureOf : NativeCall → Option JavaArguments
  | .captureArguments arguments _ => arguments
  | _ => none

/-- The arguments that are captured after native calls: the last ones that any of them captured. -/
def lastCaptured (before : Option JavaArguments) (calls : List NativeCall) : Option JavaArguments :=
  calls.foldl (fun last call => (captureOf call).or last) before

/-- **What a native call may reply** when these arguments are the ones captured last: their number
with the synthetic one, one of them or the synthetic one, or the result of `send`. -/
def Replies (captured : Option JavaArguments) : NativeCall → Reply → Prop
  | .captureArguments _ _, reply => reply = .nothing
  | .idricArgumentCount _, reply => ∃ array ∈ captured, ∃ number : Int32,
      reply = .count number ∧ number.toInt = array.elements.length + 1
  | .idricArgument index _ _ _, reply => ∃ array ∈ captured, ∃ text,
      reply = .argument text ∧ 0 ≤ index.toInt ∧
        (some executableName :: array.elements)[index.toInt.toNat]? = some (some text)
  | .idricPutString _ _ _, reply => reply = .nothing
  | .idricExit _, _ => False
  | .icuSend request answers, reply =>
      reply = .result (send transport getBytes (callsOf answers) request).value

/-- What a native call leaves when it returns. -/
structure Leaves (state : Session) (call : NativeCall) (later : Session) (reply : Reply) :
    Prop where
  replies : Replies transport getBytes (state.captured.map Prod.snd) call reply
  captured : later.captured.map Prod.snd = (captureOf call).or (state.captured.map Prod.snd)
  numbered : state.Numbered → later.Numbered

theorem leaves_captureArguments {state later : Session} {arguments : Option JavaArguments}
    {newGlobalRef : Given} {reply : Reply}
    (ended : (captureArguments state arguments newGlobalRef).value = .returned later reply) :
    Leaves transport getBytes state (.captureArguments arguments newGlobalRef) later reply := by
  cases arguments with
  | none => cases ended
  | some array =>
      unfold captureArguments at ended
      rw [Traced.value_bind] at ended
      split at ended
      · cases ended
      · obtain ⟨rfl, rfl⟩ := Ended.returned.inj ended
        refine ⟨rfl, rfl, fun _ captured there => ?_⟩
        obtain rfl := Option.some.inj there
        exact Nat.lt_succ_self _

theorem leaves_idricArgumentCount {state later : Session} {throws : Bool} {reply : Reply}
    (ended : (idricArgumentCount state throws).value = .returned later reply) :
    Leaves transport getBytes state (.idricArgumentCount throws) later reply := by
  unfold idricArgumentCount at ended
  cases captured : state.captured with
  | none =>
      rw [captured] at ended
      cases ended
  | some found =>
      obtain ⟨capture, array⟩ := found
      rw [captured] at ended
      dsimp only at ended
      rw [Traced.value_bind] at ended
      split at ended
      · cases ended
      · rename_i counts
        obtain ⟨rfl, rfl⟩ := Ended.returned.inj ended
        rw [not_or] at counts
        refine ⟨⟨array, by rw [captured]; rfl, _, rfl, ?_⟩, rfl, id⟩
        have short := array.short
        have length : (Int32.ofNat array.elements.length).toInt = array.elements.length :=
          Int32.toInt_ofNat_of_lt short
        have room : array.elements.length ≠ 2 ^ 31 - 1 := by
          intro full
          exact counts.2 (by rw [full]; rfl)
        rw [Int32.toInt_add, length, show (1 : Int32).toInt = 1 from rfl]
        exact Int.bmod_eq_of_le (by omega) (by omega)

/-- An index that is within the arguments, and not the synthetic one. -/
theorem getElem?_index {array : JavaArguments} {index : Int32} {text : List UInt16}
    (positive : ¬ index < 1)
    (read : array.elements[(index - 1).toInt.toNat]?.join = some text) :
    0 ≤ index.toInt ∧
      (some executableName :: array.elements)[index.toInt.toNat]? = some (some text) := by
  have one : (1 : Int32).toInt = 1 := rfl
  have least : 1 ≤ index.toInt := by
    rw [Int32.lt_iff_toInt_lt, one] at positive
    omega
  have before : (index - 1).toInt = index.toInt - 1 := by
    rw [Int32.toInt_sub_of_le index 1 (by decide) (Int32.le_iff_toInt_le.mpr least), one]
  have after : index.toInt.toNat = (index - 1).toInt.toNat + 1 := by omega
  refine ⟨by omega, ?_⟩
  rw [after, List.getElem?_cons_succ]
  exact Option.join_eq_some_iff.mp read

theorem leaves_idricArgument {state later : Session} {index : Int32} {newString : Given}
    {measureThrows : Bool} {element : Given} {reply : Reply}
    (ended : (idricArgument state index newString measureThrows element).value =
      .returned later reply) :
    Leaves transport getBytes state (.idricArgument index newString measureThrows element) later
      reply := by
  unfold idricArgument at ended
  cases captured : state.captured with
  | none =>
      rw [captured] at ended
      cases ended
  | some found =>
      obtain ⟨capture, array⟩ := found
      have there : array ∈ state.captured.map Prod.snd := by rw [captured]; rfl
      rw [captured] at ended
      dsimp only at ended
      split at ended
      · rename_i zero
        rw [Traced.value_bind] at ended
        split at ended
        · cases ended
        · obtain ⟨rfl, rfl⟩ := Ended.returned.inj ended
          exact ⟨⟨array, there, _, rfl, by rw [zero]; decide, by rw [zero]; rfl⟩, rfl, id⟩
      · rw [Traced.value_bind] at ended
        split at ended
        · cases ended
        · rename_i within
          rw [not_or, not_or] at within
          cases read : array.elements[(index - 1).toInt.toNat]?.join with
          | none =>
              rw [read] at ended
              cases ended
          | some text =>
              rw [read] at ended
              dsimp only at ended
              rw [Traced.value_bind] at ended
              split at ended
              · cases ended
              · obtain ⟨rfl, rfl⟩ := Ended.returned.inj ended
                obtain ⟨nonnegative, found⟩ := getElem?_index within.2.1 read
                exact ⟨⟨array, there, text, rfl, nonnegative, found⟩, rfl, id⟩

/-- **A native call that returns replies from the arguments that are captured**, and changes nothing
but these. -/
theorem leaves_perform {state later : Session} {call : NativeCall} {reply : Reply}
    (ended : (perform transport getBytes state call).value = .returned later reply) :
    Leaves transport getBytes state call later reply := by
  cases call with
  | captureArguments arguments newGlobalRef =>
      exact leaves_captureArguments transport getBytes ended
  | idricArgumentCount throws => exact leaves_idricArgumentCount transport getBytes ended
  | idricArgument index newString measureThrows element =>
      exact leaves_idricArgument transport getBytes ended
  | idricPutString text answers write =>
      change (idricPutString getBytes state text answers write).value = _ at ended
      unfold idricPutString at ended
      rw [Traced.value_bind] at ended
      cases copied : (copyJavaUtf8Held getBytes answers .stdout text).value with
      | none =>
          rw [copied] at ended
          cases ended
      | some copy =>
          rw [copied] at ended
          simp only [Traced.value_bind] at ended
          split at ended
          · cases ended
          · obtain ⟨rfl, rfl⟩ := Ended.returned.inj ended
            exact ⟨rfl, rfl, id⟩
  | idricExit status => cases ended
  | icuSend request answers =>
      obtain ⟨rfl, rfl⟩ := Ended.returned.inj ended
      exact ⟨congrArg Reply.result (value_sendHeld transport getBytes answers request), rfl, id⟩

/-! ## Sessions -/

/-- Every reply of a session is one that its call may give. -/
theorem session_replies {state : Session} {calls : List NativeCall} {index : ℕ} {call : NativeCall}
    {reply : Reply} (here : calls[index]? = some call)
    (replied : (session transport getBytes state calls).value.replies[index]? = some reply) :
    Replies transport getBytes
      (lastCaptured (state.captured.map Prod.snd) (calls.take index)) call reply := by
  induction calls generalizing state index with
  | nil => cases here
  | cons first rest ih =>
      unfold session at replied
      rw [Traced.value_bind] at replied
      cases ended : (perform transport getBytes state first).value with
      | exited status =>
          rw [ended] at replied
          cases replied
      | returned later answer =>
          have left := leaves_perform transport getBytes ended
          rw [ended] at replied
          cases index with
          | zero =>
              obtain rfl := Option.some.inj here
              obtain rfl := Option.some.inj replied
              exact left.replies
          | succ index =>
              have answered := ih here replied
              rw [left.captured] at answered
              exact answered

/-- A session that does not exit replies to every call. -/
theorem length_replies {state : Session} {calls : List NativeCall}
    (stays : (session transport getBytes state calls).value.exit = none) :
    (session transport getBytes state calls).value.replies.length = calls.length := by
  induction calls generalizing state with
  | nil => rfl
  | cons first rest ih =>
      unfold session at stays ⊢
      rw [Traced.value_bind] at stays ⊢
      cases ended : (perform transport getBytes state first).value with
      | exited status =>
          rw [ended] at stays
          cases stays
      | returned later answer =>
          rw [ended] at stays
          exact congrArg Nat.succ (ih stays)

end Replies

/-- **Arguments are answered from the last capture.** In every sequence of native calls each reply
is the one its call may give when the arguments captured last before it are read, and a session that
does not exit replies to every call. -/
theorem arguments_answered (transport : TransportCall → Int32)
    (getBytes : List UInt16 → JavaBytes) (calls : List NativeCall) :
    let ran := (session transport getBytes .fresh calls).value
    (∀ index call reply, calls[index]? = some call → ran.replies[index]? = some reply →
      Replies transport getBytes (lastCaptured none (calls.take index)) call reply) ∧
      (ran.exit = none → ran.replies.length = calls.length) :=
  ⟨fun _ _ _ here replied => session_replies transport getBytes here replied,
    length_replies transport getBytes⟩

end IcuTransport.Android
